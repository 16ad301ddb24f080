/-!
# Thermoscape.Field.Extent

The size of a rectangular field and where its cells are kept.

Cells are numbered row by row from the top left corner: column `x` of row `y`
has number `y · width + x`. Coordinates are integers, so that a place beyond
any of the four edges can be asked for; it has no number. The neighbours of a
cell are the cells that share an edge with it. A place beyond the edge of the
field is no neighbour, so corners have two and border cells three.
-/

namespace Thermoscape

structure Extent where
  width : UInt32
  height : UInt32
  deriving DecidableEq, Inhabited

namespace Extent

def count (e : Extent) : Nat := e.width.toNat * e.height.toNat

/-- The place lies in the field. -/
def Contains (e : Extent) (x y : Int) : Prop :=
  0 ≤ x ∧ x < e.width.toNat ∧ 0 ≤ y ∧ y < e.height.toNat

instance (e : Extent) (x y : Int) : Decidable (e.Contains x y) := by
  unfold Contains
  infer_instance

/-- The number of the cell at a place, if the place lies in the field. -/
def index? (e : Extent) (x y : Int) : Option Nat :=
  if e.Contains x y then some (y.toNat * e.width.toNat + x.toNat) else none

def column (e : Extent) (i : Nat) : Nat := i % e.width.toNat

def row (e : Extent) (i : Nat) : Nat := i / e.width.toNat

/-- The steps to the places that share an edge: up, down, left and right. -/
def directions : List (Int × Int) := [(0, -1), (0, 1), (-1, 0), (1, 0)]

/-- The cells next to a place, in the order of the directions. -/
def neighbours (e : Extent) (x y : Int) : List Nat :=
  directions.filterMap fun (dx, dy) => e.index? (x + dx) (y + dy)

def rowMajor (e : Extent) : List Nat := List.range e.count

theorem index?_of_contains {e : Extent} {x y : Int} (h : e.Contains x y) :
    e.index? x y = some (y.toNat * e.width.toNat + x.toNat) := by
  rw [index?, if_pos h]

theorem index?_of_not_contains {e : Extent} {x y : Int} (h : ¬ e.Contains x y) :
    e.index? x y = none := by
  rw [index?, if_neg h]

end Extent

end Thermoscape
