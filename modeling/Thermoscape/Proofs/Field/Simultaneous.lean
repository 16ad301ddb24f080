import Thermoscape.Proofs.Field.Places
import Thermoscape.Proofs.Field.Stencil

/-!
# Thermoscape.Proofs.Field.Simultaneous

**The order of the sweep does not matter.** What a step makes of a field is written
down here place by place, without numbers of cells and without an order: `beside`
lists the temperatures next to a place and `relaxed` is what the place becomes. A
step in which every cell is visited once, in whatever order, gives that temperature to
every place at once (`stepIn_simultaneous`).

The pending values and the stamps before the step are overwritten without having been
read, and the ambient temperature is never looked at: places beyond the edge are no
neighbours.
-/

namespace Thermoscape

namespace Grid

variable {α : Type}

/-! ### A place among its neighbours -/

/-- The temperatures at the places above, below, left and right of a place, as far as
these lie in the field. -/
def beside (g : Grid α) (x y : Int) : List α :=
  ([(x, y - 1), (x, y + 1), (x - 1, y), (x + 1, y)].filter
    fun p => decide (g.extent.Contains p.1 p.2)).map fun p => g.temperatureAt p.1 p.2

/-- What the temperature at a place becomes in one step. -/
def relaxed [Scalar α] (g : Grid α) (x y : Int) : α :=
  let t := g.temperatureAt x y
  let ts := g.beside x y
  if ts = [] then t
  else t + (ts.foldl (fun sum next => sum + next) Scalar.emptySum / Scalar.ofCount ts.length - t)
    * g.rate

/-- The neighbours of a cell, found by number, are those of its place. -/
theorem around_eq_beside {g : Grid α} (hg : g.WellFormed) (i : Nat) :
    Diffusion.around g.extent g.cells i
      = g.beside (g.extent.column i) (g.extent.row i) := by
  generalize hx : (g.extent.column i : Int) = x
  generalize hy : (g.extent.row i : Int) = y
  rw [Diffusion.around, Extent.neighbours, hx, hy, beside, Extent.four_places,
    ← List.filterMap_eq_filter, List.map_filterMap, List.filterMap_map, List.filterMap_filterMap]
  -- Both sides now ask at each direction for the temperature of the cell there.
  congr 1
  funext d
  have cell := hg.map_temperature_cell? (x + d.1) (y + d.2)
  by_cases inside : g.extent.Contains (x + d.1) (y + d.2)
  · rw [if_pos inside, cell?, Option.map_bind] at cell
    simpa [Option.guard, inside, Function.comp_def] using cell
  · simp [Option.guard, inside, Extent.index?_of_not_contains inside]

variable [Scalar α] {g : Grid α}

theorem relax_eq (rate t : α) (ts : List α) :
    relax rate t ts
      = if ts = [] then t
        else t + (ts.foldl (fun sum next => sum + next) Scalar.emptySum / Scalar.ofCount ts.length
          - t) * rate := by
  cases ts with
  | nil => rfl
  | cons s ts => rfl

/-- What a cell will become, by its number, is what its place becomes. -/
theorem next_eq_relaxed (hg : g.WellFormed) {x y : Int} {i : Nat} {c : Cell α}
    (hindex : g.extent.index? x y = some i) (hc : g.cells[i]? = some c) :
    Diffusion.next g.extent g.rate g.cells i c = g.relaxed x y := by
  have htemperature : g.temperatureAt x y = c.temperature := by
    rw [temperatureAt, cell?_of_index hindex, hc]
  obtain ⟨-, rfl, rfl⟩ := Extent.index?_eq_some_iff.mp hindex
  rw [Diffusion.next, around_eq_beside hg, relax_eq, relaxed, htemperature]

/-! ### The step -/

/-- In whatever order the cells are visited, the step is the same. -/
theorem stepIn_eq_step (hg : g.WellFormed) {order : List Nat}
    (horder : order.Perm g.extent.rowMajor) (tick : UInt64) :
    g.stepIn order tick = g.step tick := by
  have visited : ∀ i < g.cells.size, i ∈ order := by
    intro i hi
    exact horder.mem_iff.mpr (mem_rowMajor hg i hi)
  have cells : (g.stepIn order tick).cells = (g.step tick).cells := by
    apply Array.ext_getElem?
    intro j
    rw [getElem?_stepIn visited, step, getElem?_stepIn (mem_rowMajor hg)]
  exact congrArg (fun cells => { g with cells := cells }) cells

/-- What every place holds after a step. -/
theorem cell?_step (hg : g.WellFormed) {x y : Int} (inside : g.extent.Contains x y)
    (tick : UInt64) : (g.step tick).cell? x y = some ⟨g.relaxed x y, g.relaxed x y, tick⟩ := by
  have index := Extent.index?_of_contains inside
  obtain ⟨c, hc⟩ := hg.exists_cell (Extent.index?_eq_some_iff.mp index).1
  rw [cell?_of_index (g := g.step tick) index, step, getElem?_stepIn (mem_rowMajor hg), hc]
  simp [next_eq_relaxed hg index hc]

/-- What every cell is after a step, by the temperatures before it. -/
theorem getElem?_step (hg : g.WellFormed) (tick : UInt64) (j : Nat) :
    (g.step tick).cells[j]?
      = g.temperatures[j]?.map fun t =>
          let next := relax g.rate t (Diffusion.surroundings g.extent g.temperatures j)
          ⟨next, next, tick⟩ := by
  rw [step, getElem?_stepIn (mem_rowMajor hg), temperatures, List.getElem?_map,
    Array.getElem?_toList, Option.map_map]
  congr 1
  funext c
  simp [Diffusion.next, Diffusion.around_eq_surroundings]

/-- Fields of one size and rate that hold the same temperatures have the same cells
after a step. -/
theorem cells_step_congr {g' : Grid α} (hg : g.WellFormed) (hg' : g'.WellFormed)
    (hextent : g'.extent = g.extent) (hrate : g'.rate = g.rate)
    (htemperatures : g'.temperatures = g.temperatures) (tick : UInt64) :
    (g'.step tick).cells = (g.step tick).cells := by
  apply Array.ext_getElem?
  intro j
  rw [getElem?_step hg', getElem?_step hg, hextent, hrate, htemperatures]

/-- **A step changes all places at once, whatever the order of the sweep.** Each place
gets what `relaxed` says of the field before the step, as current and as pending value,
and the stamp of the step; the rest of the field stays. Nothing but the size, the rate
and the temperatures has any influence on the cells. -/
theorem stepIn_simultaneous (hg : g.WellFormed) (tick : UInt64) {order : List Nat}
    (horder : order.Perm g.extent.rowMajor) :
    let g' := g.stepIn order tick
    g' = g.step tick
    ∧ g'.extent = g.extent ∧ g'.ambient = g.ambient ∧ g'.rate = g.rate
    ∧ g'.cells.size = g.extent.width.toNat * g.extent.height.toNat
    ∧ (∀ x y, g.extent.Contains x y →
        g'.cell? x y = some ⟨g.relaxed x y, g.relaxed x y, tick⟩)
    ∧ ∀ (other : Grid α) (order' : List Nat), other.WellFormed →
        order'.Perm other.extent.rowMajor → other.extent = g.extent → other.rate = g.rate →
        other.temperatures = g.temperatures → (other.stepIn order' tick).cells = g'.cells := by
  intro g'
  have same : g' = g.step tick := stepIn_eq_step hg horder tick
  refine ⟨same, rfl, rfl, rfl, ?_, ?_, ?_⟩
  · rw [same]
    exact hg.step tick
  · intro x y inside
    rw [same]
    exact cell?_step hg inside tick
  · intro other order' hother horder' hextent hrate htemperatures
    rw [same, stepIn_eq_step hother horder']
    exact cells_step_congr hg hother hextent hrate htemperatures tick

/-- Four cells with pending values and stamps that do not belong to them, visited from
the last one on: the corner is drawn to the cells below it and on its right. -/
theorem stepIn_simultaneous_corner :
    let g : Grid Binary64 :=
      { extent := ⟨2, 2⟩, ambient := .infinity, rate := .half
        cells := #[⟨.one, .infinity, 9⟩, ⟨.two, .zero, 3⟩, ⟨.half, .two, 0⟩, ⟨.zero, .one, 5⟩] }
    let mean : Binary64 := (.negativeZero + .half + .two) / .ofNat 2
    let next : Binary64 := .one + (mean - .one) * .half
    g.WellFormed ∧ [3, 0, 2, 1].Perm g.extent.rowMajor
      ∧ (g.stepIn [3, 0, 2, 1] 7).cell? 0 0 = some ⟨next, next, 7⟩ := by
  intro g mean next
  have hg : g.WellFormed := rfl
  have horder : [3, 0, 2, 1].Perm g.extent.rowMajor := by decide
  have inside : g.extent.Contains 0 0 := by decide
  obtain ⟨-, -, -, -, -, cell, -⟩ := stepIn_simultaneous hg 7 horder
  exact ⟨hg, horder, cell 0 0 inside⟩

end Grid

end Thermoscape
