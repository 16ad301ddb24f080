import Thermoscape.Proofs.Snapshot.Safety

/-!
# Thermoscape.Proofs.Snapshot.Exchange

**Taking a snapshot and putting it back are inverse to each other.** Taking goes through
the cells in order; putting back computes the place of every temperature from its number
and looks up the cell at that place. Both go row by row, so a field that a snapshot was put
into shows that snapshot when the next one is taken, and a field that gets its own snapshot
back stays as it was.

What a snapshot does not show is not touched: `Applied` lists what a field has from the
snapshot and what it keeps of its own. A snapshot is refused for its own temperatures
before the two sizes are compared, and a refusal leaves the field alone.
-/

namespace Thermoscape.Snapshot

/-- The field `after` is the field `before` with the temperatures of a snapshot. -/
structure Applied (r : Snapshot) (before after : Grid Binary64) : Prop where
  /-- The next snapshot has the size and the temperatures of this one. -/
  captured : ∀ name timestamp time,
    (capture name timestamp after time).extent = r.extent
      ∧ (capture name timestamp after time).temperatures = r.temperatures
  pending_eq : ∀ c ∈ after.cells, c.pending = c.temperature
  stamps_eq : after.stamps = before.stamps
  ambient_eq : after.ambient = before.ambient
  rate_eq : after.rate = before.rate

/-- A snapshot of the size of a field, with a temperature for every cell, is put back. -/
theorem exists_applied {g : Grid Binary64} (hg : g.WellFormed) {r : Snapshot}
    (hcount : r.extent.count = r.temperatures.length) (hextent : r.extent = g.extent) :
    ∃ g', r.applyTo g = .ok () g' ∧ r.Applied g g' := by
  have hlength : r.temperatures.length = g.extent.count := hcount.symm.trans (hextent ▸ rfl)
  refine ⟨_, applyTo_eq_ok hcount hextent, ⟨fun name timestamp time => ⟨?_, ?_⟩, ?_, ?_, ?_, ?_⟩⟩
  · exact (g.extent_setTemperatures r.temperatures).trans hextent.symm
  · exact Grid.temperatures_setTemperatures hg hlength
  · exact Grid.pending_setTemperatures hg hlength
  · exact g.stamps_setTemperatures r.temperatures
  · exact g.ambient_setTemperatures r.temperatures
  · exact g.rate_setTemperatures r.temperatures

/-- A field that gets its own snapshot back stays as it was, unless a value is pending. -/
theorem applyTo_capture {g : Grid Binary64} (hg : g.WellFormed)
    (hpending : ∀ c ∈ g.cells, c.pending = c.temperature) (name : String) (timestamp : UInt64)
    (time : Binary64) : (capture name timestamp g time).applyTo g = .ok () g := by
  have applied := applyTo_eq_ok (s := capture name timestamp g time)
    hg.length_temperatures.symm (g := g) rfl
  rw [applied]
  exact congrArg _ (Grid.setTemperatures_temperatures hg hpending)

/-- A new field that is made from a snapshot with a temperature for every cell. -/
theorem exists_toGrid {r : Snapshot} (hcount : r.extent.count = r.temperatures.length) :
    ∃ g, r.toGrid = .ok g ∧ g.extent = r.extent ∧ g.ambient = r.ambient
      ∧ g.temperatures = r.temperatures ∧ ∀ c ∈ g.cells, c.stamp = 0 := by
  have blank := Grid.wellFormed_initial r.extent r.ambient defaultRate
  have settled := (Grid.settled_initial r.extent r.ambient defaultRate).setTemperatures
    r.temperatures
  refine ⟨_, r.toGrid_eq.trans (if_pos hcount), Grid.extent_setTemperatures _ _,
    Grid.ambient_setTemperatures _ _, Grid.temperatures_setTemperatures blank hcount.symm, ?_⟩
  intro c hc
  exact (settled c hc).2

/-- **Taking and putting back are inverse.** A snapshot with a wrong number of temperatures
is refused for that by every field, and one with the right number by a field of another
size, in either side; both leave the field as it was. Every other snapshot is put back, and
the next one that is taken shows it again.

Conversely, the snapshot of a field changes nothing in that field if nothing is pending
there, and gives every other field of the size the same temperatures. A new field made from
a snapshot has all that the snapshot says of a field, and has never been stepped. -/
theorem applyTo_capture_inverse {g : Grid Binary64} (hg : g.WellFormed) :
    (∀ r : Snapshot,
      let expected := r.extent.width.toNat * r.extent.height.toNat
      let found := r.temperatures.length
      (found ≠ expected → r.applyTo g = .error (.cellCount expected found) g)
      ∧ (found = expected →
          (r.extent.width ≠ g.extent.width ∨ r.extent.height ≠ g.extent.height →
            r.applyTo g = .error (.extentMismatch r.extent g.extent) g)
          ∧ (r.extent.width = g.extent.width → r.extent.height = g.extent.height →
            ∃ g', r.applyTo g = .ok () g' ∧ r.Applied g g')))
    ∧ (∀ name timestamp time,
        let r := capture name timestamp g time
        ((∀ c ∈ g.cells, c.pending = c.temperature) → r.applyTo g = .ok () g)
        ∧ ∀ other : Grid Binary64, other.WellFormed → other.extent = g.extent →
            ∃ g', r.applyTo other = .ok () g' ∧ r.Applied other g'
              ∧ g'.temperatures = g.temperatures)
    ∧ ∀ r : Snapshot, r.temperatures.length = r.extent.width.toNat * r.extent.height.toNat →
        ∃ g', r.toGrid = .ok g' ∧ g'.extent = r.extent ∧ g'.ambient = r.ambient
          ∧ g'.temperatures = r.temperatures ∧ ∀ c ∈ g'.cells, c.stamp = 0 := by
  refine ⟨fun r => ⟨fun hcount => ?_, fun hcount => ⟨fun hsides => ?_, fun hwidth hheight => ?_⟩⟩,
    fun name timestamp time => ⟨fun hpending => ?_, fun other hother hextent => ?_⟩,
    fun r hcount => ?_⟩
  · exact applyTo_of_count_ne (Ne.symm hcount) g
  · refine applyTo_of_extent_ne hcount.symm fun hextent => ?_
    rw [hextent] at hsides
    simp at hsides
  · exact exists_applied hg hcount.symm (Extent.eq_of_sides hwidth hheight)
  · exact applyTo_capture hg hpending name timestamp time
  · obtain ⟨g', hg', applied⟩ := exists_applied hother
      (r := capture name timestamp g time) hg.length_temperatures.symm hextent.symm
    exact ⟨g', hg', applied, (applied.captured name timestamp time).2⟩
  · exact exists_toGrid hcount.symm

/-- A field that has been stepped refuses a snapshot with two faults for the first of them,
and a turned one for its size. It takes a NaN and a negative zero, and gets its own snapshot
back without a change. Among fields without cells the heights still count. -/
theorem applyTo_capture_inverse_faults :
    let g := (Grid.withAmbient ⟨2, 1⟩ .one).step 4
    let bare := Grid.withAmbient ⟨0, 5⟩ .one
    let r : Snapshot :=
      { name := "", timestamp := 0, formatVersion := 9, extent := ⟨2, 1⟩, time := .zero
        ambient := .two, temperatures := [⟨0x7ff0000000000001⟩, .negativeZero], creatures := [] }
    let turned := { r with extent := ⟨1, 2⟩ }
    let empty := { r with extent := ⟨0, 7⟩, temperatures := [] }
    g.WellFormed ∧ bare.WellFormed
      ∧ { turned with temperatures := [.one] }.applyTo g = .error (.cellCount 2 1) g
      ∧ turned.applyTo g = .error (.extentMismatch ⟨1, 2⟩ ⟨2, 1⟩) g
      ∧ empty.applyTo bare = .error (.extentMismatch ⟨0, 7⟩ ⟨0, 5⟩) bare
      ∧ (∃ g', r.applyTo g = .ok () g' ∧ r.Applied g g')
      ∧ (∀ c ∈ g.cells, c.pending = c.temperature)
      ∧ (capture "" 0 g .one).applyTo g = .ok () g
      ∧ (∃ g', (capture "" 0 g .one).applyTo (Grid.withAmbient ⟨2, 1⟩ .two) = .ok () g'
          ∧ g'.temperatures = g.temperatures)
      ∧ ∃ g', empty.toGrid = .ok g' ∧ g'.extent = ⟨0, 7⟩ ∧ g'.ambient = .two := by
  intro g bare r turned empty
  have hg : g.WellFormed := (Grid.wellFormed_initial _ _ _).step 4
  have hbare : bare.WellFormed := Grid.wellFormed_initial _ _ _
  have hpending : ∀ c ∈ g.cells, c.pending = c.temperature :=
    fun c hc => ((Grid.wellFormed_initial _ _ _).settled_step 4 c hc).1
  obtain ⟨outcomes, back, made⟩ := applyTo_capture_inverse hg
  obtain ⟨unchanged, others⟩ := back "" 0 .one
  obtain ⟨g', hg', -, temperatures⟩ := others (Grid.withAmbient ⟨2, 1⟩ .two)
    (Grid.wellFormed_initial _ _ _) rfl
  obtain ⟨g'', hg'', extent, ambient, -⟩ := made empty rfl
  exact ⟨hg, hbare, (outcomes _).1 (by decide), ((outcomes turned).2 rfl).1 (.inl (by decide)),
    (((applyTo_capture_inverse hbare).1 empty).2 rfl).1 (.inr (by decide)),
    ((outcomes r).2 rfl).2 rfl rfl, hpending, unchanged hpending, ⟨g', hg', temperatures⟩,
    ⟨g'', hg'', extent, ambient⟩⟩

end Thermoscape.Snapshot
