import Thermoscape.Field.Grid
import Thermoscape.Field.Settings

/-!
# Thermoscape.Field.Gradient

How a field begins: with the ambient temperature in the middle, going over to
half of it with the distance from the middle, which is reached in the far
corner. So the middle is the warmest place under an ambient temperature above
zero, and the coldest under one below. Any extent may be asked for; one without
columns or without rows has no cells.
-/

namespace Thermoscape.Grid

/-- The temperature that a place begins with. -/
def gradient (e : Extent) (ambient : Binary64) (x y : Nat) : Binary64 :=
  let middleX := Binary64.ofNat e.width.toNat / .two
  let middleY := Binary64.ofNat e.height.toNat / .two
  let farthest := (middleX * middleX + middleY * middleY).sqrt
  let dx := Binary64.ofNat x - middleX
  let dy := Binary64.ofNat y - middleY
  let distance := (dx * dx + dy * dy).sqrt / farthest
  ambient * (.one - distance * .half)

def initial (e : Extent) (ambient rate : Binary64) : Grid Binary64 where
  extent := e
  ambient := ambient
  rate := rate
  cells := (e.rowMajor.map fun i => Cell.resting (gradient e ambient (e.column i) (e.row i))).toArray

/-- A field at its beginning, with the default rate. -/
def withAmbient (e : Extent) (ambient : Binary64) : Grid Binary64 :=
  initial e ambient defaultRate

/-- A field at its beginning, with the default ambient temperature and rate. -/
def standard (e : Extent) : Grid Binary64 := withAmbient e defaultAmbient

/-- The field that settings describe, at its beginning. -/
def ofConfig (c : Config) : Grid Binary64 := initial c.extent c.ambient c.rate

/-- A field begins with one cell for every place. -/
theorem wellFormed_initial (e : Extent) (ambient rate : Binary64) :
    (initial e ambient rate).WellFormed := by
  simp [WellFormed, initial, Extent.rowMajor]

end Thermoscape.Grid
