import Thermoscape.Field.Grid
import Thermoscape.Field.Scalar

/-!
# Thermoscape.Field.Diffusion

One step of diffusion: every cell goes part of the way to the mean of its
neighbours.

A step has two phases. The *sweep* visits cells one after the other and writes
what each will become into its `pending` value; the *commit* then makes all
pending values current. The sweep reads current temperatures only and writes
pending values only, so that no cell sees what another has become in the same
step, whatever the order in which cells are visited.
-/

namespace Thermoscape

variable {α : Type} [Scalar α]

@[specialize] def Scalar.sum (ts : List α) : α := ts.foldl (fun s t => s + t) Scalar.emptySum

/-- The mean of a list that is not empty. -/
@[specialize] def Scalar.mean (ts : List α) : α := Scalar.sum ts / Scalar.ofCount ts.length

/-- What a temperature becomes in one step among the temperatures around it. -/
@[specialize] def relax (rate t : α) (around : List α) : α :=
  if around.isEmpty then t else t + (Scalar.mean around - t) * rate

namespace Diffusion

def around {α : Type} (e : Extent) (cells : Array (Cell α)) (i : Nat) : List α :=
  (e.neighbours (e.column i) (e.row i)).filterMap fun n => (cells[n]?).map Cell.temperature

/-- Computes what one cell will become. -/
@[specialize] def visit (e : Extent) (rate : α) (cells : Array (Cell α)) (i : Nat) :
    Array (Cell α) :=
  match cells[i]? with
  | some c =>
    let next := relax rate c.temperature (around e cells i)
    cells.setIfInBounds i { c with pending := next }
  | none => cells

/-- Computes what the listed cells will become, one after the other. -/
@[specialize] def sweep (e : Extent) (rate : α) (order : List Nat) (cells : Array (Cell α)) :
    Array (Cell α) :=
  order.foldl (visit e rate) cells

/-- Makes the pending values current and stamps the cells. -/
def commit {α : Type} (tick : UInt64) (cells : Array (Cell α)) : Array (Cell α) :=
  cells.map fun c => { c with temperature := c.pending, stamp := tick }

omit [Scalar α] in
@[simp] theorem size_commit (tick : UInt64) (cells : Array (Cell α)) :
    (commit tick cells).size = cells.size := by
  simp [commit]

@[simp] theorem size_visit (e : Extent) (rate : α) (cells : Array (Cell α)) (i : Nat) :
    (visit e rate cells i).size = cells.size := by
  unfold visit
  split
  · exact Array.size_setIfInBounds
  · rfl

@[simp] theorem size_sweep (e : Extent) (rate : α) (order : List Nat) (cells : Array (Cell α)) :
    (sweep e rate order cells).size = cells.size := by
  induction order generalizing cells with
  | nil => rfl
  | cons i order ih => exact (ih (visit e rate cells i)).trans (size_visit e rate cells i)

end Diffusion

namespace Grid

/-- One step in which the cells are visited in the given order. -/
@[specialize] def stepIn (order : List Nat) (tick : UInt64) (g : Grid α) : Grid α :=
  { g with cells := Diffusion.commit tick (Diffusion.sweep g.extent g.rate order g.cells) }

@[specialize] def step (tick : UInt64) (g : Grid α) : Grid α :=
  g.stepIn g.extent.rowMajor tick

/-- A number of steps with consecutive ticks. -/
@[specialize] def run (first : UInt64) : (n : Nat) → Grid α → Grid α
  | 0, g => g
  | n + 1, g => run (first + 1) n (g.step first)

/-- A step neither adds nor removes a cell. -/
theorem WellFormed.step {g : Grid α} (h : g.WellFormed) (tick : UInt64) :
    (g.step tick).WellFormed := by
  have size : (g.step tick).cells.size = g.cells.size := by simp [Grid.step, stepIn]
  exact size.trans h

end Grid

end Thermoscape
