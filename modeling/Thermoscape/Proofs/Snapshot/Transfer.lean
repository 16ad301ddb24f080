import Thermoscape.Proofs.Field.Writing
import Thermoscape.Proofs.Snapshot.Wire

/-!
# Thermoscape.Proofs.Snapshot.Transfer

**Between fields and snapshots.** A snapshot that is taken of a well-formed field
has a temperature for every cell, so that it can be written, read and put back.
Putting a snapshot back is two checks and one change: `applyTo_cases` lists all that
it can do, and its users need not look at the checks again.
-/

namespace Thermoscape.Snapshot

/-! ### Taking -/

/-- A snapshot of a field that settings can describe fits the format. -/
theorem fits_capture {g : Grid Binary64} (h : g.WellFormed) (hcount : g.extent.count ≤ maxCells)
    (name : String) (timestamp : UInt64) (time : Binary64) :
    (capture name timestamp g time).Fits where
  temperatures_eq := h.length_temperatures
  count_lt := Nat.lt_of_le_of_lt hcount (by decide)
  creatures_lt := (by decide : 0 < UInt32.size)
  dna_lt := nofun

/-! ### Putting back -/

theorem applyTo_of_count_ne {s : Snapshot} (h : s.extent.count ≠ s.temperatures.length)
    (g : Grid Binary64) :
    s.applyTo g = .error (.cellCount s.extent.count s.temperatures.length) g := by
  have refused : s.validate = .error (.cellCount s.extent.count s.temperatures.length) := if_neg h
  unfold applyTo
  rw [refused]
  rfl

theorem applyTo_of_extent_ne {s : Snapshot} (hcount : s.extent.count = s.temperatures.length)
    {g : Grid Binary64} (h : s.extent ≠ g.extent) :
    s.applyTo g = .error (.extentMismatch s.extent g.extent) g := by
  have valid : s.validate = .ok () := if_pos hcount
  unfold applyTo
  rw [valid]
  show (if s.extent ≠ g.extent then _ else _ : EStateM SaveError (Grid Binary64) Unit) g = _
  rw [if_pos h]
  rfl

theorem applyTo_eq_ok {s : Snapshot} (hcount : s.extent.count = s.temperatures.length)
    {g : Grid Binary64} (h : s.extent = g.extent) :
    s.applyTo g = .ok () (g.setTemperatures s.temperatures) := by
  have valid : s.validate = .ok () := if_pos hcount
  unfold applyTo
  rw [valid]
  show (if s.extent ≠ g.extent then _ else _ : EStateM SaveError (Grid Binary64) Unit) g = _
  rw [if_neg (not_not_intro h)]
  rfl

/-- **All that putting back can do**: it fails and leaves the field as it was, or it
forces the temperatures of a field of its own size. -/
theorem applyTo_cases (s : Snapshot) (g : Grid Binary64) :
    (∃ e, s.applyTo g = .error e g)
    ∨ s.extent.count = s.temperatures.length ∧ s.extent = g.extent
      ∧ s.applyTo g = .ok () (g.setTemperatures s.temperatures) := by
  by_cases hcount : s.extent.count = s.temperatures.length
  · by_cases hextent : s.extent = g.extent
    · exact .inr ⟨hcount, hextent, applyTo_eq_ok hcount hextent⟩
    · exact .inl ⟨_, applyTo_of_extent_ne hcount hextent⟩
  · exact .inl ⟨_, applyTo_of_count_ne hcount g⟩

end Thermoscape.Snapshot
