import Thermoscape.Proofs.Octets.Replacement
import Thermoscape.Proofs.Snapshot.Wire

/-!
# Thermoscape.Proofs.Snapshot.Grammar

**The files that can be loaded**, as a relation between byte strings and what is
in them. `WireForm` writes the format out from the first byte to the last without
reference to how it is written or read. A byte string loads exactly when it has a
wire form, and it has at most one: neither the length of the name, nor the numbers
of items, nor the beginning of what follows the snapshot can be taken in two ways.

Three freedoms are part of the format. The header may declare an earlier version,
the name may be any bytes, and anything may follow. Bytes that are no text stand
for one all the same, with each maximal ill-formed part replaced (`Utf8.Lossy`).
-/

namespace Thermoscape

open LittleEndian (encode)

/-- A file, byte for byte: mark and version, the name, the fields in front of the
temperatures, the temperatures, the creatures, and what follows. -/
def wireBytes (version : UInt16) (name : Octets) (s : Snapshot) (after : Octets) : Octets :=
  encode 4 0x45564F53 ++ encode 2 version.toNat
    ++ encode 4 name.length ++ name
    ++ encode 8 s.timestamp.toNat ++ encode 4 s.formatVersion.toNat
    ++ encode 4 s.extent.width.toNat ++ encode 4 s.extent.height.toNat
    ++ encode 8 s.time.bits.toNat ++ encode 8 s.ambient.bits.toNat
    ++ encode 4 (s.extent.width.toNat * s.extent.height.toNat)
    ++ s.temperatures.flatMap (fun t => encode 8 t.bits.toNat)
    ++ encode 4 s.creatures.length
    ++ s.creatures.flatMap (fun c =>
        encode 4 c.x.bits.toNat ++ encode 4 c.y.bits.toNat ++ encode 4 c.energy.bits.toNat
          ++ encode 4 c.dna.length ++ c.dna)
    ++ after

/-- The byte string is a file that declares `version`, stores a name as `name`,
holds the snapshot `s`, and goes on with `after`. -/
structure WireForm (bytes : Octets) (version : UInt16) (name : Octets) (s : Snapshot)
    (after : Octets) : Prop where
  version_le : version ≤ 1
  name_lt : name.length < UInt32.size
  name_lossy : Utf8.Lossy name s.name.toList
  temperatures_eq : s.temperatures.length = s.extent.width.toNat * s.extent.height.toNat
  count_lt : s.extent.width.toNat * s.extent.height.toNat < UInt32.size
  creatures_lt : s.creatures.length < UInt32.size
  dna_lt : ∀ c ∈ s.creatures, c.dna.length < UInt32.size
  bytes_eq : bytes = wireBytes version name s after

/-- With a temperature for every cell, a file is the layout of its header and its
snapshot. -/
theorem wireBytes_eq {s : Snapshot} (h : s.temperatures.length = s.extent.count)
    (version : UInt16) (name after : Octets) :
    wireBytes version name s after = Header.layout version ++ s.layout name ++ after := by
  have magic : Header.magic.toNat = 0x45564F53 := rfl
  have temperatures : temperatureLayout = fun t => encode 8 t.bits.toNat := rfl
  have creatures : Creature.layout = fun c => encode 4 c.x.bits.toNat ++ encode 4 c.y.bits.toNat
    ++ encode 4 c.energy.bits.toNat ++ encode 4 c.dna.length ++ c.dna := rfl
  have count : s.temperatures.length = s.extent.width.toNat * s.extent.height.toNat := h
  simp only [wireBytes, Header.layout, Snapshot.layout, nameLayout, Snapshot.body, countedLayout,
    magic, temperatures, creatures, count, List.append_assoc]

namespace WireForm

variable {bytes name after : Octets} {version : UInt16} {s : Snapshot}

theorem fits (h : WireForm bytes version name s after) : s.Fits :=
  ⟨h.temperatures_eq, h.count_lt, h.creatures_lt, h.dna_lt⟩

theorem eq_layout (h : WireForm bytes version name s after) :
    bytes = Header.layout version ++ s.layout name ++ after :=
  h.bytes_eq.trans (wireBytes_eq h.temperatures_eq version name after)

theorem name_eq (h : WireForm bytes version name s after) : s.name = Utf8.decode name :=
  Utf8.lossy_toList_iff.mp h.name_lossy

/-- A wire form is loaded up to where it ends. -/
theorem read_eq (h : WireForm bytes version name s after) :
    Loaded.read (Cursor.start bytes)
      = .ok ⟨version, s⟩ ⟨(Header.layout version ++ s.layout name).length, after⟩ := by
  have crosses := Cursor.crosses_of_append 0 (Header.layout version ++ s.layout name) after
  rw [Nat.zero_add, ← h.eq_layout] at crosses
  exact Loaded.read_eq_ok_iff.mpr
    ⟨h.version_le, h.fits, name, h.name_lt, h.name_eq.symm, crosses⟩

/-- What is loaded has a wire form, with what was not read behind it. -/
theorem of_read {l : Loaded} {c : Cursor} (h : Loaded.read (Cursor.start bytes) = .ok l c) :
    ∃ name, WireForm bytes l.version name l.snapshot c.rest := by
  obtain ⟨hversion, fits, name, hlt, hdecode, hcross⟩ := Loaded.read_eq_ok_iff.mp h
  refine ⟨name, hversion, hlt, Utf8.lossy_toList_iff.mpr hdecode.symm, fits.temperatures_eq,
    fits.count_lt, fits.creatures_lt, fits.dna_lt, ?_⟩
  rw [wireBytes_eq fits.temperatures_eq]
  exact hcross.rest_eq

/-- Two wire forms of one byte string are the same. Loading gives back all but the
bytes of the name, and these are what is left when all else is taken away. -/
theorem unique {version' : UInt16} {name' after' : Octets} {s' : Snapshot}
    (h : WireForm bytes version name s after) (h' : WireForm bytes version' name' s' after') :
    version = version' ∧ name = name' ∧ s = s' ∧ after = after' := by
  have same := h.read_eq.symm.trans h'.read_eq
  simp only [EStateM.Result.ok.injEq, Loaded.mk.injEq, Cursor.mk.injEq] at same
  obtain ⟨⟨rfl, rfl⟩, -, rfl⟩ := same
  -- All fields but the name agree, and the lengths in front of the names have one width.
  have layouts := List.append_cancel_right (h.eq_layout.symm.trans h'.eq_layout)
  have names : nameLayout name = nameLayout name' :=
    List.append_cancel_right (List.append_cancel_left layouts)
  refine ⟨rfl, List.append_inj_right names ?_, rfl, rfl⟩
  rw [LittleEndian.length_encode, LittleEndian.length_encode]

end WireForm

/-- **The loader accepts exactly the wire grammar, unambiguously.** -/
theorem Snapshot.ofBytes_eq_ok_iff_wireForm (bytes : Octets) :
    (∀ s, Snapshot.ofBytes bytes = .ok s
      ↔ ∃ version name after, WireForm bytes version name s after)
    ∧ ∀ version name s after version' name' s' after',
      WireForm bytes version name s after → WireForm bytes version' name' s' after' →
        version = version' ∧ name = name' ∧ s = s' ∧ after = after' := by
  constructor
  · intro s
    rw [Snapshot.ofBytes_eq_ok_iff]
    constructor
    · intro hread
      obtain ⟨version, c, h⟩ := hread
      obtain ⟨name, hform⟩ := WireForm.of_read h
      exact ⟨version, name, c.rest, hform⟩
    · intro hform
      obtain ⟨version, name, after, h⟩ := hform
      exact ⟨version, _, h.read_eq⟩
  · intro version name s after version' name' s' after' h h'
    exact h.unique h'

end Thermoscape
