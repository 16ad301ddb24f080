import Thermoscape.Field.Grid
import Thermoscape.Field.Gradient
import Thermoscape.Number.Binary32
import Thermoscape.Octets.Header
import Thermoscape.Snapshot.Error

/-!
# Thermoscape.Snapshot.Basic

A snapshot: what is kept of a world when it is saved, and how it moves between
snapshots and fields.

Taking a snapshot copies the visible temperatures row by row. Putting one back
checks it first and changes the field only when every check has passed; the
field keeps its own ambient temperature, rate and stamps. Creatures are part of
the format but not yet of the field, so a snapshot that is taken has none.
-/

namespace Thermoscape

structure Creature where
  x : Binary32
  y : Binary32
  energy : Binary32
  /-- The genome, whose meaning is not known here. -/
  dna : Octets
  deriving DecidableEq

/-- Equality of values, as numbers are compared. -/
def Creature.sameValue (c d : Creature) : Bool :=
  c.x.sameValue d.x && c.y.sameValue d.y && c.energy.sameValue d.energy && c.dna = d.dna

structure Snapshot where
  /-- The name that the player gave. -/
  name : String
  /-- When it was saved, in nanoseconds since 1970. -/
  timestamp : UInt64
  /-- The version of the format that the snapshot itself names. -/
  formatVersion : UInt32
  extent : Extent
  time : Binary64
  ambient : Binary64
  /-- The temperatures, row by row. -/
  temperatures : List Binary64
  creatures : List Creature
  deriving DecidableEq

namespace Snapshot

/-- Checks that there is a temperature for every cell. -/
def validate (s : Snapshot) : Except SaveError Unit :=
  if s.extent.count = s.temperatures.length then .ok ()
  else .error (.cellCount s.extent.count s.temperatures.length)

/-- Equality of values, as numbers are compared: a snapshot with a NaN differs
from itself, and zeros of both signs are equal. -/
def sameValue (s t : Snapshot) : Bool :=
  s.name = t.name && s.timestamp = t.timestamp && s.formatVersion = t.formatVersion
    && s.extent = t.extent && s.time.sameValue t.time && s.ambient.sameValue t.ambient
    && s.temperatures.isEqv t.temperatures Binary64.sameValue
    && s.creatures.isEqv t.creatures Creature.sameValue

/-! ### Fields -/

def capture (name : String) (timestamp : UInt64) (g : Grid Binary64) (time : Binary64) :
    Snapshot where
  name := name
  timestamp := timestamp
  formatVersion := Header.currentVersion.toUInt32
  extent := g.extent
  time := time
  ambient := g.ambient
  temperatures := g.temperatures
  creatures := []

/-- Puts the temperatures back into a field of the same size. -/
def applyTo (s : Snapshot) : EStateM SaveError (Grid Binary64) Unit := do
  ofExcept s.validate
  let g ← get
  if s.extent ≠ g.extent then
    throw (.extentMismatch s.extent g.extent)
  set (g.setTemperatures s.temperatures)

/-- A new field with the size, the ambient temperature and the temperatures of
the snapshot. The rate is not saved: the field has the default rate. -/
def toGrid (s : Snapshot) : Except SaveError (Grid Binary64) := do
  s.validate
  match s.applyTo (Grid.withAmbient s.extent s.ambient) with
  | .ok _ g => return g
  | .error e _ => throw e

end Snapshot

end Thermoscape
