import Thermoscape.Field.Gradient
import Thermoscape.Proofs.Field.Stencil

/-!
# Thermoscape.Proofs.Field.Settled

**Between steps a field is settled**: no cell has a value pending that it does not show,
and all cells carry one stamp. A field begins so, with the stamp 0. A step stamps every
cell and makes its pending value current; forcing a temperature sets both values and
leaves the stamp. These are all the ways to change a cell, so that every operation on a
field takes settled fields to settled fields.
-/

namespace Thermoscape.Grid

/-- No value is pending, and every cell was last stepped at `tick`. -/
def Settled {α : Type} (g : Grid α) (tick : UInt64) : Prop :=
  ∀ c ∈ g.cells, c.pending = c.temperature ∧ c.stamp = tick

/-- A field begins settled, before the first step. -/
theorem settled_initial (e : Extent) (ambient rate : Binary64) :
    (initial e ambient rate).Settled 0 := by
  intro c hc
  obtain ⟨i, -, rfl⟩ := List.mem_map.mp (Array.mem_toList_iff.mpr hc)
  exact ⟨rfl, rfl⟩

variable {α : Type} {g : Grid α} {tick : UInt64}

/-- A step settles the field, whatever it was before. -/
theorem WellFormed.settled_step [Scalar α] (hg : g.WellFormed) (tick : UInt64) :
    (g.step tick).Settled tick := by
  intro c hc
  obtain ⟨j, hj⟩ := Array.mem_iff_getElem?.mp hc
  rw [Grid.step, getElem?_stepIn (mem_rowMajor hg)] at hj
  obtain ⟨before, -, rfl⟩ := Option.map_eq_some_iff.mp hj
  exact ⟨rfl, rfl⟩

theorem Settled.setTemperature (h : g.Settled tick) (x y : Int) (t : α) :
    (g.setTemperature x y t).Settled tick := by
  cases hindex : g.extent.index? x y with
  | none =>
      rw [setTemperature_of_none hindex]
      exact h
  | some i =>
      rw [setTemperature_of_index hindex]
      intro c hc
      obtain ⟨j, hj⟩ := Array.mem_iff_getElem?.mp hc
      rw [Array.getElem?_modify] at hj
      by_cases hij : i = j
      · -- The forced cell shows what it holds, and its stamp is untouched.
        rw [if_pos hij] at hj
        obtain ⟨before, hbefore, rfl⟩ := Option.map_eq_some_iff.mp hj
        exact ⟨rfl, (h before (Array.mem_iff_getElem?.mpr ⟨j, hbefore⟩)).2⟩
      · rw [if_neg hij] at hj
        exact h c (Array.mem_iff_getElem?.mpr ⟨j, hj⟩)

theorem Settled.setTemperatures (h : g.Settled tick) (ts : List α) :
    (g.setTemperatures ts).Settled tick :=
  setTemperatures_induction (motive := (Settled · tick)) h
    (fun _ x y t h => h.setTemperature x y t) ts

end Thermoscape.Grid
