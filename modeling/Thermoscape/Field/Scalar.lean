import Thermoscape.Number.Binary64

/-!
# Thermoscape.Field.Scalar

The numbers that diffusion is computed with. The rules of the field use four
operations, a count turned into a number and a value that sums start from, and
nothing else is assumed of them: in particular no law of arithmetic, so that
what holds for every `Scalar` holds for rounded numbers too.
-/

namespace Thermoscape

class Scalar (α : Type) extends Add α, Sub α, Mul α, Div α where
  /-- The sum of no numbers. -/
  emptySum : α
  /-- A count as a number. -/
  ofCount : Nat → α

/-- Rounded numbers. Their sums start from the negative zero, which leaves
every number that is added to it as it is. -/
instance : Scalar Binary64 where
  emptySum := Binary64.negativeZero
  ofCount := Binary64.ofNat

end Thermoscape
