/-!
# Thermoscape.Number.Binary32

Single-precision numbers that are stored and never computed with. A value is
its thirty-two bits, so two values are equal exactly when they are stored
alike: NaN payloads and the sign of zero are part of the value.
-/

namespace Thermoscape

/-- A single-precision number, as the word that stores it. -/
structure Binary32 where
  /-- Sign, exponent and fraction, most significant bit first. -/
  bits : UInt32
  deriving DecidableEq, Inhabited

namespace Binary32

def magnitude (x : Binary32) : UInt32 := x.bits &&& 0x7fffffff

/-- All exponent bits are set and the fraction is not zero. -/
def isNaN (x : Binary32) : Bool := 0x7f800000 < x.magnitude

def isNegative (x : Binary32) : Bool := 0x80000000 ≤ x.bits

/-- An integer that orders the numbers as their values do; both zeros are at 0. -/
def rank (x : Binary32) : Int :=
  if x.isNegative then - (x.magnitude.toNat : Int) else x.magnitude.toNat

/-- Equality of values: a NaN differs from every number, and both zeros are equal. -/
def sameValue (x y : Binary32) : Bool :=
  !x.isNaN && !y.isNaN && x.rank == y.rank

end Binary32

end Thermoscape
