import Thermoscape.Field.Diffusion
import Thermoscape.World.Host

/-!
# Thermoscape.World.Simulation

A running world: a field, the number of steps it has made and the simulated
time, together with the surroundings that it is saved with.

Saving reads the world and never changes it. Restoring sets the temperatures
and the time to those of a snapshot; the number of steps is not saved and goes
on as it was. When restoring fails the world is as it was before.
-/

namespace Thermoscape

structure Simulation where
  grid : Grid Binary64
  /-- The number of steps made. -/
  tick : UInt64
  time : Binary64
  deriving DecidableEq

namespace Simulation

/-- The world that settings describe, before its first step. -/
def ofConfig (c : Config) : Simulation := ⟨Grid.ofConfig c, 0, .zero⟩

/-- One step that takes `dt` seconds. -/
def step (s : Simulation) (dt : Binary64) : Simulation where
  grid := s.grid.step (s.tick + 1)
  tick := s.tick + 1
  time := s.time + dt

/-- A number of steps that take `dt` seconds each. -/
def run (dt : Binary64) : (n : Nat) → Simulation → Simulation
  | 0, s => s
  | n + 1, s => run dt n (s.step dt)

def setTemperature (s : Simulation) (x y : Int) (t : Binary64) : Simulation :=
  { s with grid := s.grid.setTemperature x y t }

end Simulation

/-- A world in its surroundings. -/
structure Session where
  simulation : Simulation
  host : Host
  deriving DecidableEq

abbrev SessionM (α : Type) := EStateM SaveError Session α

namespace Session

def onHost {α : Type} (act : HostM α) : SessionM α := fun s =>
  match act s.host with
  | .ok a h => .ok a { s with host := h }
  | .error e h => .error e { s with host := h }

def onGrid {α : Type} (act : EStateM SaveError (Grid Binary64) α) : SessionM α := fun s =>
  match act s.simulation.grid with
  | .ok a g => .ok a { s with simulation := { s.simulation with grid := g } }
  | .error e g => .error e { s with simulation := { s.simulation with grid := g } }

/-- The bytes of a snapshot of the world. -/
def save (name : String) : SessionM Octets := do
  let s := (← get).simulation
  let bytes ← onHost (Host.save name s.grid s.time)
  onHost (Host.report [.saved name s.tick bytes.length])
  return bytes

def saveTo (name path : String) : SessionM Unit := do
  let bytes ← save name
  onHost (Host.store path bytes)

def restore (r : Snapshot) : SessionM Unit := do
  onGrid r.applyTo
  modify fun s => { s with simulation := { s.simulation with time := r.time } }
  onHost (Host.report [.restored r.name r.time])

def restoreBytes (bytes : Octets) : SessionM Snapshot := do
  let r ← onHost (Host.load bytes)
  restore r
  return r

def restoreFrom (path : String) : SessionM Snapshot := do
  let bytes ← onHost (Host.fetch path)
  restoreBytes bytes

end Session

end Thermoscape
