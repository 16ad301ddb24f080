import Thermoscape.Proofs.Snapshot.Outcome
import Thermoscape.Proofs.Snapshot.RoundTrip

/-!
# Thermoscape.Proofs.Snapshot.Overflow

**Saving does not look at the words that counts are stored in.** It checks that there is a
temperature for every cell and nothing else; a count that is too large for its word of 32
bits is stored by its low bits. So there are snapshots that are saved without complaint and
not loaded as they were, and `saved_loads_iff` says which: exactly those in which some number
of items does not fit.

What loading makes of them depends on the count. Too many temperatures are refused, since the
sides of the field are stored whole and their product gives the count away. A genome is not
counted a second time, and of the last creature it is silently cut to what its length word
says (`ofBytes_cut`).
-/

namespace Thermoscape

open LittleEndian (encode)

/-! ### Counts that do not fit -/

/-- A file whose number of temperatures is stored wrongly is refused for it. -/
theorem Stored.wrongCount {bytes name after : Octets} {version : UInt16} {s : Snapshot}
    (h : Stored bytes version name s after) (hversion : version ≤ 1)
    (hne : s.temperatures.length % UInt32.size ≠ s.extent.count) :
    WrongCount bytes s.extent.count (s.temperatures.length % UInt32.size) where
  header := ⟨h.header_le_length, h.wordAt_magic, by rw [h.wordAt_version]; exact hversion⟩
  present := by
    rw [h.nameEnd_eq, h.bytes_eq]
    simp only [Header.layout, Snapshot.layout, nameLayout, Snapshot.body, countedLayout,
      List.length_append, LittleEndian.length_encode]
    omega
  expected_eq := by rw [h.wordAt_width, h.wordAt_height, Extent.count]
  found_eq := h.wordAt_count.symm
  found_ne := hne

/-- A creature with as much of its genome as its length word announces. -/
def Creature.cut (c : Creature) : Creature :=
  { c with dna := c.dna.take (c.dna.length % UInt32.size) }

theorem Creature.length_dna_cut (c : Creature) :
    c.cut.dna.length = c.dna.length % UInt32.size := by
  rw [cut, List.length_take, Nat.min_eq_left (Nat.mod_le _ _)]

/-- What is written of a creature is the creature with its genome cut, and the rest of the
genome behind it. -/
theorem Creature.layout_eq_cut (c : Creature) :
    c.layout = c.cut.layout ++ c.dna.drop (c.dna.length % UInt32.size) := by
  have low : encode 4 (c.dna.length % UInt32.size) = encode 4 c.dna.length :=
    LittleEndian.encode_mod 4 c.dna.length
  rw [layout, layout, c.length_dna_cut, low]
  simp [cut]

namespace Snapshot

/-! ### What becomes of what is saved -/

/-- The only check of saving. -/
theorem toBytes_eq_ok_iff {s : Snapshot} {bytes : Octets} :
    s.toBytes = .ok bytes
      ↔ s.temperatures.length = s.extent.count
        ∧ bytes = Header.layout Header.currentVersion ++ s.payload := by
  by_cases h : s.temperatures.length = s.extent.count
  · rw [toBytes_eq h]
    simp [h, eq_comm]
  · have refused : s.validate = .error (.cellCount s.extent.count s.temperatures.length) :=
      if_neg (Ne.symm h)
    rw [toBytes, refused]
    constructor
    · intro hok
      cases hok
    · intro hvalid
      exact absurd hvalid.1 h

/-- Whatever loads has counts that fit. -/
theorem fits_of_ofBytes {bytes : Octets} {s : Snapshot} (h : ofBytes bytes = .ok s) : s.Fits := by
  obtain ⟨version, c, hread⟩ := ofBytes_eq_ok_iff.mp h
  exact (Loaded.read_eq_ok_iff.mp hread).2.1

/-- **The genome of the last creature is cut without notice.** -/
theorem ofBytes_cut {s : Snapshot} {cs : List Creature} {c : Creature}
    (hcreatures : s.creatures = cs ++ [c])
    (fits : { s with creatures := cs ++ [c.cut] }.Fits)
    (hname : (Utf8.encode s.name).length ≤ Builder.maxTextLength) :
    ofBytes (Header.layout Header.currentVersion ++ s.payload)
      = .ok { s with creatures := cs ++ [c.cut] } := by
  have loads := ofBytes_of_fits fits hname (c.dna.drop (c.dna.length % UInt32.size))
  have same : s.payload = { s with creatures := cs ++ [c.cut] }.payload
      ++ c.dna.drop (c.dna.length % UInt32.size) := by
    simp only [payload_eq, layout, body, hcreatures, countedLayout, List.flatMap_append,
      List.flatMap_singleton, c.layout_eq_cut, List.length_append, List.length_singleton,
      List.append_assoc]
  rw [same, ← List.append_assoc]
  exact loads

/-- With a temperature for every cell, fitting is a matter of three kinds of counts. -/
theorem fits_iff {s : Snapshot} (hcount : s.temperatures.length = s.extent.count) :
    s.Fits ↔ s.temperatures.length < UInt32.size ∧ s.creatures.length < UInt32.size
      ∧ ∀ c ∈ s.creatures, c.dna.length < UInt32.size := by
  constructor
  · intro fits
    exact ⟨hcount ▸ fits.count_lt, fits.creatures_lt, fits.dna_lt⟩
  · intro hfit
    obtain ⟨htemperatures, hcreatures, hdna⟩ := hfit
    exact ⟨hcount, hcount ▸ htemperatures, hcreatures, hdna⟩

/-- **A field of too many cells is refused.** The number of temperatures that is stored is below
the capacity of its word, and the product of the sides is not. -/
theorem ofBytes_of_many_cells {s : Snapshot} (hcount : s.temperatures.length = s.extent.count)
    (hlarge : UInt32.size ≤ s.temperatures.length) :
    ofBytes (Header.layout Header.currentVersion ++ s.payload)
      = .error (.cellCount s.extent.count (s.temperatures.length % UInt32.size)) := by
  have stored := s.stored_payload Header.currentVersion []
  rw [List.append_nil] at stored
  have hne : s.temperatures.length % UInt32.size ≠ s.extent.count := by
    have := Nat.mod_lt s.temperatures.length (show 0 < UInt32.size by decide)
    omega
  exact ofBytes_eq_cellCount_iff.mpr (stored.wrongCount (Nat.le_refl _) hne)

/-- **What is saved is loaded as it was exactly when its counts fit their words.** Saving
succeeds for every snapshot with a temperature for every cell, whatever its counts. A field of
too many cells is refused by the loader, with the low bits of its number of temperatures. -/
theorem saved_loads_iff {s : Snapshot}
    (hname : (Utf8.encode s.name).length ≤ UInt32.size - 1) :
    ((∃ bytes, s.toBytes = .ok bytes) ↔ s.temperatures.length = s.extent.count)
    ∧ ∀ bytes, s.toBytes = .ok bytes →
      (ofBytes bytes = .ok s
        ↔ s.temperatures.length < UInt32.size ∧ s.creatures.length < UInt32.size
          ∧ ∀ c ∈ s.creatures, c.dna.length < UInt32.size)
      ∧ (UInt32.size ≤ s.temperatures.length →
          ofBytes bytes
            = .error (.cellCount s.extent.count (s.temperatures.length % UInt32.size))) := by
  refine ⟨by simp [toBytes_eq_ok_iff], fun bytes hsave => ?_⟩
  obtain ⟨hcount, rfl⟩ := toBytes_eq_ok_iff.mp hsave
  refine ⟨?_, ofBytes_of_many_cells hcount⟩
  rw [← fits_iff hcount]
  refine ⟨fits_of_ofBytes, fun fits => ?_⟩
  simpa using ofBytes_of_fits fits hname []

/-- A square field of 65536 columns and rows, the smallest square that has too many cells, is
saved, and refused as a file without temperatures. -/
theorem saved_loads_iff_square :
    let s : Snapshot :=
      { name := "é", timestamp := 0, formatVersion := 1, extent := ⟨65536, 65536⟩, time := .zero
        ambient := .one, temperatures := List.replicate UInt32.size .one, creatures := [] }
    (Utf8.encode s.name).length ≤ UInt32.size - 1
      ∧ ∃ bytes, s.toBytes = .ok bytes
        ∧ ofBytes bytes = .error (.cellCount 4294967296 0) := by
  intro s
  have hname : (Utf8.encode s.name).length ≤ UInt32.size - 1 := by decide
  have hlength : s.temperatures.length = UInt32.size := List.length_replicate
  have hcount : s.extent.count = UInt32.size := by decide
  obtain ⟨saves, loads⟩ := saved_loads_iff hname
  obtain ⟨bytes, hsave⟩ := saves.mpr (hlength.trans hcount.symm)
  have refused := (loads bytes hsave).2 (Nat.le_of_eq hlength.symm)
  rw [hlength, hcount, Nat.mod_self] at refused
  exact ⟨hname, bytes, hsave, refused⟩

/-- **A genome of 2 ^ 32 bytes is saved and lost.** Its length is stored as 0. The file is
written without complaint and loads without complaint, as a snapshot whose only creature has no
genome. -/
theorem genome_saved_and_lost :
    let c : Creature := ⟨⟨0⟩, ⟨0⟩, ⟨0⟩, List.replicate UInt32.size 0⟩
    let s : Snapshot :=
      { name := "", timestamp := 0, formatVersion := 1, extent := ⟨0, 0⟩, time := .zero
        ambient := .zero, temperatures := [], creatures := [c] }
    (Utf8.encode s.name).length ≤ UInt32.size - 1
      ∧ ∃ bytes, s.toBytes = .ok bytes
        ∧ ofBytes bytes = .ok { s with creatures := [{ c with dna := [] }] }
        ∧ ofBytes bytes ≠ .ok s := by
  intro c s
  have hname : (Utf8.encode s.name).length ≤ UInt32.size - 1 := by decide
  have hlength : c.dna.length = UInt32.size := List.length_replicate
  have hcut : c.cut = { c with dna := [] } := by
    rw [Creature.cut, hlength, Nat.mod_self, List.take_zero]
  have fits : { s with creatures := [] ++ [c.cut] }.Fits := by
    rw [hcut]
    exact ⟨rfl, by decide, by decide, by simp⟩
  have loads := ofBytes_cut (s := s) rfl fits hname
  rw [hcut, List.nil_append] at loads
  refine ⟨hname, _, toBytes_eq rfl, loads, ?_⟩
  rw [loads]
  intro h
  have creatures := congrArg Snapshot.creatures (Except.ok.inj h)
  have genomes := congrArg Creature.dna (List.head_eq_of_cons_eq creatures)
  have lengths : 0 = c.dna.length := congrArg List.length genomes
  rw [hlength] at lengths
  exact absurd lengths (by decide)

end Snapshot

end Thermoscape
