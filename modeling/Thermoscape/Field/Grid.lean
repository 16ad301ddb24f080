import Thermoscape.Field.Extent
import Thermoscape.Number.Binary64

/-!
# Thermoscape.Field.Grid

The temperature field: a cell for every place of an extent, row by row.

A cell carries the temperature that everyone sees, the value that the step in
progress has computed for it, and the tick at which it was last stepped. Places
outside the field have the ambient temperature and cannot be written. The rate
of diffusion belongs to the field as well.

The number of cells is `extent.count` for every field that is built here; the
operations keep it (`WellFormed`), and the type does not insist on it.
-/

namespace Thermoscape

/-- One place of the field. -/
structure Cell (α : Type) where
  temperature : α
  /-- The temperature after the step in progress. -/
  pending : α
  /-- The tick of the last step, 0 before the first. -/
  stamp : UInt64
  deriving DecidableEq

/-- A cell that has rested at a temperature since before the first step. -/
def Cell.resting {α : Type} (t : α) : Cell α := ⟨t, t, 0⟩

/-- A cell whose temperature is forced. The forced value is seen at once. -/
def Cell.force {α : Type} (c : Cell α) (t : α) : Cell α :=
  { c with temperature := t, pending := t }

structure Grid (α : Type) where
  extent : Extent
  /-- The temperature of every place outside the field. -/
  ambient : α
  /-- How much of the way to the mean of its neighbours a cell goes in a step. -/
  rate : α
  /-- The cells, row by row. -/
  cells : Array (Cell α)
  deriving DecidableEq

namespace Grid

variable {α : Type}

/-- There is one cell for every place of the extent. -/
def WellFormed (g : Grid α) : Prop := g.cells.size = g.extent.count

/-! ### Reading -/

/-- The cell at a place, if the place lies in the field. -/
def cell? (g : Grid α) (x y : Int) : Option (Cell α) :=
  (g.extent.index? x y).bind fun i => g.cells[i]?

/-- The temperature at a place. -/
def temperatureAt (g : Grid α) (x y : Int) : α :=
  match g.cell? x y with
  | some c => c.temperature
  | none => g.ambient

/-- The cells of a row, if the field has that row. -/
def row? (g : Grid α) (y : Nat) : Option (List (Cell α)) :=
  if y < g.extent.height.toNat then
    let start := y * g.extent.width.toNat
    some (g.cells.extract start (start + g.extent.width.toNat)).toList
  else none

def temperatures (g : Grid α) : List α := g.cells.toList.map Cell.temperature

/-- The least and the greatest temperature, by the given choices and from the
given bounds. -/
def rangeBy (g : Grid α) (least greatest : α → α → α) (start : α × α) : α × α :=
  g.temperatures.foldl (fun r t => (least r.1 t, greatest r.2 t)) start

/-- The least and the greatest temperature. Cells that hold no number are passed
over; with no other cell the bounds are infinite the wrong way round. -/
def range (g : Grid Binary64) : Binary64 × Binary64 :=
  g.rangeBy Binary64.min Binary64.max (.infinity, .negativeInfinity)

/-! ### Writing -/

/-- Forces the temperature at a place. Nothing happens outside the field. -/
def setTemperature (g : Grid α) (x y : Int) (t : α) : Grid α :=
  match g.extent.index? x y with
  | some i => { g with cells := g.cells.modify i (Cell.force · t) }
  | none => g

/-- Forces the temperatures of all cells, row by row. -/
def setTemperatures (g : Grid α) (ts : List α) : Grid α :=
  ts.zipIdx.foldl (fun g (t, i) => g.setTemperature (g.extent.column i) (g.extent.row i) t) g

/-! ### What writing leaves alone -/

@[simp] theorem extent_setTemperature (g : Grid α) (x y : Int) (t : α) :
    (g.setTemperature x y t).extent = g.extent := by
  unfold setTemperature
  split <;> rfl

@[simp] theorem ambient_setTemperature (g : Grid α) (x y : Int) (t : α) :
    (g.setTemperature x y t).ambient = g.ambient := by
  unfold setTemperature
  split <;> rfl

@[simp] theorem rate_setTemperature (g : Grid α) (x y : Int) (t : α) :
    (g.setTemperature x y t).rate = g.rate := by
  unfold setTemperature
  split <;> rfl

@[simp] theorem size_setTemperature (g : Grid α) (x y : Int) (t : α) :
    (g.setTemperature x y t).cells.size = g.cells.size := by
  unfold setTemperature
  split
  · exact Array.size_modify
  · rfl

/-- Forcing a temperature neither adds nor removes a cell. -/
theorem WellFormed.setTemperature {g : Grid α} (h : g.WellFormed) (x y : Int) (t : α) :
    (g.setTemperature x y t).WellFormed := by
  rw [WellFormed, size_setTemperature, extent_setTemperature]
  exact h

end Grid

end Thermoscape
