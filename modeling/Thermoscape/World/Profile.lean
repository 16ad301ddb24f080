import Thermoscape.World.Simulation

/-!
# Thermoscape.World.Profile

Fixed worlds to measure with: square fields of two sizes with three spots of
forced temperature, and their saved form after a hundred steps, dated at a
fixed time so that it is always the same.
-/

namespace Thermoscape

/-- A world to measure with. -/
inductive Profile where
  /-- Ten thousand cells. -/
  | reference
  /-- About a hundred thousand cells. -/
  | stress
  deriving DecidableEq

namespace Profile

def side : Profile → UInt32
  | reference => 100
  | stress => 316

/-- A spot of forced temperature, at percentages of the two sides. -/
structure Spot where
  percentX : Nat
  percentY : Nat
  temperature : Binary64

/-- The spots: 120 degrees, 80 degrees and 20 degrees below zero. -/
def spots : List Spot :=
  [⟨25, 25, ⟨0x405e000000000000⟩⟩, ⟨75, 50, ⟨0x4054000000000000⟩⟩, ⟨50, 90, ⟨0xc034000000000000⟩⟩]

def grid (p : Profile) : Grid Binary64 :=
  let place (percent : Nat) : Nat := p.side.toNat * percent / 100
  spots.foldl (fun g s => g.setTemperature (place s.percentX) (place s.percentY) s.temperature)
    (Grid.standard ⟨p.side, p.side⟩)

/-- The time at which the saved form is dated. -/
def timestamp : UInt64 := 1700000000123456789

/-- The simulated time of the saved form: 10 seconds. -/
def savedTime : Binary64 := ⟨0x4024000000000000⟩

/-- The field after a hundred steps, as bytes. -/
def saved (p : Profile) : Except SaveError Octets :=
  (Snapshot.capture "bench" timestamp (p.grid.run 1 100) savedTime).toBytes

end Profile

end Thermoscape
