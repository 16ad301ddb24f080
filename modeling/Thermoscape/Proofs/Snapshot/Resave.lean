import Thermoscape.Proofs.Snapshot.Fields
import Thermoscape.Proofs.Snapshot.RoundTrip

/-!
# Thermoscape.Proofs.Snapshot.Resave

**Loading a file and saving it again.** A file may differ from what would be written in
three ways: it may declare an earlier version, its name may be bytes that are no text,
and something may follow it. Saving what was loaded takes away just these three and keeps
every other byte. Since what is saved has none of them, doing it a second time changes
nothing; and a file that has none of them to begin with is its own saved form, so that it
is determined by what it loads as.

The bytes behind the name move when the replacements in the name change its length, and
that is the only thing that can happen to them.
-/

namespace Thermoscape

open Cursor (start within)
open LittleEndian (encode)

namespace Stored

variable {bytes name after : Octets} {version : UInt16} {s : Snapshot}

/-- What is in front of the rest of the file. -/
theorem take_consumed (h : Stored bytes version name s after) :
    bytes.take (Header.layout version ++ s.layout name).length
      = Header.layout version ++ s.layout name := by
  rw [h.bytes_eq, List.take_left]

/-- The name and the rest of the snapshot lie in the bytes. -/
theorem consumed_le (h : Stored bytes version name s after) :
    nameEnd bytes ≤ (Header.layout version ++ s.layout name).length
    ∧ (Header.layout version ++ s.layout name).length ≤ bytes.length := by
  rw [h.nameEnd_eq, h.bytes_eq]
  simp only [Header.layout, Snapshot.layout, nameLayout, List.length_append,
    LittleEndian.length_encode]
  omega

/-- The bytes from the end of the name up to the end of the snapshot. -/
theorem slice_body (h : Stored bytes version name s after) :
    slice (nameEnd bytes) ((Header.layout version ++ s.layout name).length - nameEnd bytes) bytes
      = s.body := by
  have body : (Header.layout version ++ s.layout name).length - nameEnd bytes = s.body.length := by
    rw [h.nameEnd_eq]
    simp only [Header.layout, Snapshot.layout, nameLayout, List.length_append,
      LittleEndian.length_encode]
    omega
  rw [slice, h.drop_nameEnd, body, List.take_left]

end Stored

/-- A file is read up to where its snapshot ends. -/
theorem WireForm.read_within {bytes name after : Octets} {version : UInt16} {s : Snapshot}
    (h : WireForm bytes version name s after) :
    Loaded.read (start bytes)
      = .ok ⟨version, s⟩ (within bytes (Header.layout version ++ s.layout name).length) := by
  rw [h.read_eq, within, h.eq_layout, List.drop_left]

namespace Snapshot

/-- Loads a file and saves what was loaded. -/
def resave (bytes : Octets) : Except SaveError Octets := do
  let s ← ofBytes bytes
  s.toBytes

theorem resave_eq {bytes resaved : Octets} {s : Snapshot} (hload : ofBytes bytes = .ok s)
    (hsave : s.toBytes = .ok resaved) : resave bytes = .ok resaved := by
  rw [resave, hload]
  exact hsave

/-- The bytes are a file as it would be written: of the current version, under a name that
is a text, with nothing behind it. -/
structure Canonical (bytes : Octets) (s : Snapshot) : Prop where
  whole : Loaded.read (start bytes) = .ok ⟨1, s⟩ (within bytes bytes.length)
  text : ∃ name, storedName bytes = Utf8.encode name

/-- The saved form of a snapshot that was loaded. -/
def savedForm (s : Snapshot) : Octets := Header.layout 1 ++ s.layout (Utf8.encode s.name)

/-- The saved form is a file in its own right. -/
theorem wireForm_savedForm {s : Snapshot} (fits : s.Fits)
    (hname : (Utf8.encode s.name).length < UInt32.size) :
    WireForm s.savedForm 1 (Utf8.encode s.name) s [] where
  version_le := by decide
  name_lt := hname
  name_lossy := Utf8.lossy_toList_iff.mpr (Utf8.decode_encode s.name).symm
  temperatures_eq := fits.temperatures_eq
  count_lt := fits.count_lt
  creatures_lt := fits.creatures_lt
  dna_lt := fits.dna_lt
  bytes_eq := by rw [wireBytes_eq fits.temperatures_eq, List.append_nil, savedForm]

/-- Under a name that is a text a file of the current version is the saved form of its
snapshot, up to where it was read. -/
theorem savedForm_eq_take {bytes name after : Octets} {s : Snapshot}
    (form : WireForm bytes 1 name s after)
    (htext : ∃ t, storedName bytes = Utf8.encode t) :
    s.savedForm = bytes.take (Header.layout 1 ++ s.layout name).length := by
  obtain ⟨t, ht⟩ := htext
  rw [form.stored.storedName_eq] at ht
  -- Nothing in the name was replaced, so it is written as it was.
  have hname : Utf8.encode s.name = name := by
    rw [form.name_eq, ht, Utf8.decode_encode]
  rw [savedForm, hname, form.stored.take_consumed]

theorem Canonical.eq_savedForm {bytes : Octets} {s : Snapshot} (h : Canonical bytes s) :
    bytes = s.savedForm := by
  obtain ⟨name, form⟩ := WireForm.of_read h.whole
  have nothing : (within bytes bytes.length).rest = [] := List.drop_length
  rw [nothing] at form
  have hlength : bytes.length = (Header.layout 1 ++ s.layout name).length := by
    rw [form.eq_layout, List.append_nil]
  rw [savedForm_eq_take form h.text, ← hlength, List.take_length]

/-- **Saving what was loaded is a stable normal form.** Whatever can be loaded has a
temperature for every cell and can be saved; what is saved loads as the same snapshot, bit
for bit. It is a header of the current version, the name as text, and the bytes of the file
from the end of its name to where reading stopped; of a file of the current version under a
name that is a text, it is all that was read. Saving again changes nothing, and two files
that are already in this form are equal if they load as the same snapshot. -/
theorem resave_normalises {bytes : Octets} {s : Snapshot} (h : ofBytes bytes = .ok s)
    (hname : (Utf8.encode s.name).length ≤ UInt32.size - 1) :
    ∃ (version : UInt16) (n : Nat) (resaved : Octets),
      version.toNat = wordAt 2 4 bytes
      ∧ Loaded.read (start bytes) = .ok ⟨version, s⟩ (within bytes n)
      ∧ nameEnd bytes ≤ n ∧ n ≤ bytes.length
      ∧ s.validate = .ok ()
      ∧ s.toBytes = .ok resaved
      ∧ ofBytes resaved = .ok s
      ∧ resaved = encode 4 0x45564F53 ++ encode 2 1
          ++ (encode 4 (Utf8.encode s.name).length ++ Utf8.encode s.name)
          ++ slice (nameEnd bytes) (n - nameEnd bytes) bytes
      ∧ (version = 1 → (∃ t, storedName bytes = Utf8.encode t) → resaved = bytes.take n)
      ∧ resave bytes = .ok resaved ∧ resave resaved = .ok resaved
      ∧ ∀ bytes', Canonical bytes s → Canonical bytes' s → bytes = bytes' := by
  obtain ⟨version, c, hread⟩ := ofBytes_eq_ok_iff.mp h
  obtain ⟨name, form⟩ := WireForm.of_read hread
  have hvalid : s.validate = .ok () := if_pos form.fits.temperatures_eq.symm
  have hsave : s.toBytes = .ok s.savedForm := by
    rw [toBytes_eq form.fits.temperatures_eq, payload_eq, Builder.kept_eq hname]
    rfl
  have hload : ofBytes s.savedForm = .ok s :=
    ofBytes_eq_ok_iff.mpr
      ⟨1, _, (wireForm_savedForm form.fits (Nat.lt_of_le_of_lt hname (by decide))).read_eq⟩
  refine ⟨version, (Header.layout version ++ s.layout name).length, s.savedForm,
    form.stored.wordAt_version.symm, form.read_within, form.stored.consumed_le.1,
    form.stored.consumed_le.2, hvalid, hsave, hload, ?_, ?_, resave_eq h hsave,
    resave_eq hload hsave, ?_⟩
  · rw [form.stored.slice_body, savedForm, layout, ← List.append_assoc]
    rfl
  · rintro rfl htext
    exact savedForm_eq_take form htext
  · intro bytes' hcanonical hcanonical'
    rw [hcanonical.eq_savedForm, ← hcanonical'.eq_savedForm]

/-- A file of an earlier version under a name that is no text, with a byte behind it: its
name takes three bytes where it took one. -/
theorem resave_normalises_replaced :
    let s : Snapshot :=
      { name := "\uFFFD", timestamp := 7, formatVersion := 9, extent := ⟨1, 1⟩
        time := .zero, ambient := .one, temperatures := [.negativeZero], creatures := [] }
    let bytes := Header.layout 0 ++ s.layout [0xFF] ++ [9]
    ofBytes bytes = .ok s ∧ (Utf8.encode s.name).length ≤ UInt32.size - 1
      ∧ ∃ resaved, resave bytes = .ok resaved ∧ ofBytes resaved = .ok s
        ∧ resave resaved = .ok resaved := by
  intro s bytes
  have form : WireForm bytes 0 [0xFF] s [9] :=
    ⟨by decide, by decide, Utf8.lossy_toList_iff.mpr (by decide), rfl, by decide, by decide,
      by decide, (wireBytes_eq rfl 0 [0xFF] [9]).symm⟩
  have loads : ofBytes bytes = .ok s := ofBytes_eq_ok_iff.mpr ⟨0, _, form.read_eq⟩
  have short : (Utf8.encode s.name).length ≤ UInt32.size - 1 := by decide
  obtain ⟨-, -, resaved, -, -, -, -, -, -, hload, -, -, hresave, hagain, -⟩ :=
    resave_normalises loads short
  exact ⟨loads, short, resaved, hresave, hload, hagain⟩

end Snapshot

end Thermoscape
