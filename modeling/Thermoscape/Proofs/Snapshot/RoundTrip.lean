import Thermoscape.Proofs.Octets.Utf8
import Thermoscape.Proofs.Snapshot.Wire

/-!
# Thermoscape.Proofs.Snapshot.RoundTrip

**What is saved is what is loaded.** Behind any bytes and in front of any bytes
a snapshot is written as the same bytes, and reading these gives it back with
every bit of its numbers and leaves the cursor exactly behind them.

Both halves are read off `Snapshot.layout`: the writer appends it and the reader
accepts it. The one thing that is not a matter of layout is the name, which
survives because nothing in the bytes of a text is ever replaced.
-/

namespace Thermoscape.Snapshot

/-! ### How long a snapshot is -/

/-- The sum of the lengths of creatures: four words each, and the genomes. -/
def creaturesLength : List Creature → Nat
  | [] => 0
  | c :: cs => 16 + c.dna.length + creaturesLength cs

theorem length_temperatures (ts : List Binary64) :
    (countedLayout temperatureLayout ts).length = 4 + 8 * ts.length := by
  have each : ts.map (fun t => (temperatureLayout t).length) = List.replicate ts.length 8 := by
    rw [List.eq_replicate_iff]
    simp [temperatureLayout]
  rw [countedLayout, List.length_append, LittleEndian.length_encode, List.length_flatMap, each,
    List.sum_replicate_nat, Nat.mul_comm]

theorem length_creatures (cs : List Creature) :
    (countedLayout Creature.layout cs).length = 4 + creaturesLength cs := by
  have items : (cs.flatMap Creature.layout).length = creaturesLength cs := by
    induction cs with
    | nil => rfl
    | cons c cs ih =>
        rw [List.flatMap_cons, List.length_append, ih, creaturesLength]
        simp only [Creature.layout, List.length_append, LittleEndian.length_encode]
  rw [countedLayout, List.length_append, LittleEndian.length_encode, items]

/-- The length of a saved snapshot, field by field. -/
theorem length_layout (s : Snapshot) (name : Octets) :
    (s.layout name).length
      = 48 + name.length + 8 * s.temperatures.length + creaturesLength s.creatures := by
  simp only [layout, nameLayout, body, List.length_append, LittleEndian.length_encode,
    length_temperatures, length_creatures]
  omega

/-! ### Reading back -/

/-- The name of a snapshot survives when its length can be announced. -/
theorem decode_kept {name : String} (h : (Utf8.encode name).length ≤ Builder.maxTextLength) :
    Utf8.decode (Builder.kept name) = name := by
  rw [Builder.kept_eq h, Utf8.decode_encode]

/-- The payload of a snapshot that fits is read back wherever it stands. -/
theorem read_eq_of_crosses {s : Snapshot} (fits : s.Fits)
    (hname : (Utf8.encode s.name).length ≤ Builder.maxTextLength) {c c' : Cursor}
    (h : c.Crosses s.payload c') : read c = .ok s c' := by
  rw [payload_eq] at h
  exact (readWith_eq_ok_iff admits_ensureRoom).mpr
    ⟨fits, Builder.kept s.name, Builder.length_kept_lt s.name, decode_kept hname, h⟩

/-- So is a snapshot behind a header that is not newer. -/
theorem loaded_eq_of_crosses {s : Snapshot} (fits : s.Fits)
    (hname : (Utf8.encode s.name).length ≤ Builder.maxTextLength) {version : UInt16}
    (hversion : version ≤ Header.currentVersion) {c c' : Cursor}
    (h : c.Crosses (Header.layout version ++ s.payload) c') :
    Loaded.read c = .ok ⟨version, s⟩ c' := by
  rw [payload_eq] at h
  exact Loaded.read_eq_ok_iff.mpr
    ⟨hversion, fits, Builder.kept s.name, Builder.length_kept_lt s.name, decode_kept hname, h⟩

/-- What was saved loads as it was when its counts fit. -/
theorem ofBytes_of_fits {s : Snapshot} (fits : s.Fits)
    (hname : (Utf8.encode s.name).length ≤ Builder.maxTextLength) (after : Octets) :
    ofBytes (Header.layout Header.currentVersion ++ s.payload ++ after) = .ok s :=
  ofBytes_eq_ok_iff.mpr ⟨_, _, loaded_eq_of_crosses fits hname (Nat.le_refl _)
    (Cursor.crosses_of_append 0 _ after)⟩

/-- **Writing, then reading, at any place in any bytes.** The bytes that are
written do not depend on what is in front of them; reading them gives the
snapshot, whatever follows, and stops at their end. In particular the saved
form has a known length and loads as the snapshot. -/
theorem read_write_anywhere {s : Snapshot} (fits : s.Fits)
    (hname : (Utf8.encode s.name).length ≤ UInt32.size - 1) :
    (∀ b : Builder, (s.write b).toOctets = b.toOctets ++ s.payload)
    ∧ (∀ before after : Octets,
        read (Cursor.within (before ++ s.payload ++ after) before.length)
          = .ok s (Cursor.within (before ++ s.payload ++ after)
              (before.length + s.payload.length)))
    ∧ ∃ bytes : Octets, s.toBytes = .ok bytes
      ∧ bytes.length = 54 + (Utf8.encode s.name).length + 8 * s.temperatures.length
          + creaturesLength s.creatures
      ∧ ∀ after : Octets, Snapshot.ofBytes (bytes ++ after) = .ok s := by
  refine ⟨?_, ?_, _, toBytes_eq fits.temperatures_eq, ?_, ?_⟩
  · intro b
    rw [toOctets_write, payload_eq]
  · intro before after
    exact read_eq_of_crosses fits hname (Cursor.within_crosses before s.payload after)
  · have header : (Header.layout Header.currentVersion).length = 6 := rfl
    rw [List.length_append, header, payload_eq, length_layout, Builder.kept_eq hname]
    omega
  · intro after
    exact Snapshot.ofBytes_eq_ok_iff.mpr ⟨_, _, loaded_eq_of_crosses fits hname (Nat.le_refl _)
      (Cursor.crosses_of_append 0 _ after)⟩

/-- A field with a NaN that has a payload and a zero with a sign, a creature with
a genome, and a name that is not ASCII. -/
theorem read_write_anywhere_bits :
    let s : Snapshot :=
      { name := "é€😀", timestamp := 7, formatVersion := 9, extent := ⟨2, 1⟩
        time := ⟨0xfff8000000000001⟩, ambient := .negativeZero
        temperatures := [⟨0x7ff0000000000001⟩, .negativeZero]
        creatures := [⟨⟨0x7fc00001⟩, ⟨0x80000000⟩, ⟨0⟩, [1, 2, 3]⟩] }
    s.Fits ∧ (Utf8.encode s.name).length ≤ UInt32.size - 1
      ∧ read (Cursor.within ([0xAA] ++ s.payload ++ [0xBB]) 1)
          = .ok s (Cursor.within ([0xAA] ++ s.payload ++ [0xBB]) (1 + s.payload.length)) := by
  intro s
  have fits : s.Fits := ⟨rfl, by decide, by decide, by decide⟩
  have hname : (Utf8.encode s.name).length ≤ UInt32.size - 1 := by decide
  exact ⟨fits, hname, (read_write_anywhere fits hname).2.1 [0xAA] [0xBB]⟩

end Thermoscape.Snapshot
