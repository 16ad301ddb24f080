import Thermoscape.Number.Binary64

/-!
# Thermoscape.Number.Decimal

The decimal text of a double-precision number: the fewest digits that still
read back as the same number.

A positive finite number is `significand · 2 ^ exponent`. The reals that round
to it form an interval around it, whose ends belong to it exactly when the
significand is even. Measured in quarters of the last place the number is
`4 · significand`, its upper end is two quarters away and its lower end two
quarters, or one where the spacing halves below a power of two. A decimal
`digits · 10 ^ scale` reads back when it lies in that interval, which is a
comparison of natural numbers after both powers are multiplied out.

The shortest decimal is found on the coarsest power of ten that has a multiple
in the interval: a coarser grid means fewer digits. Only the two multiples next
to the number need looking at, for if any multiple lies in the interval then
one of these does.
-/

namespace Thermoscape

/-- The nonnegative decimal number `digits · 10 ^ scale`. -/
structure Decimal where
  digits : Nat
  scale : Int
  deriving DecidableEq, Inhabited

namespace Binary64

/-! ### The interval of a number -/

def exponentField (x : Binary64) : Nat := (x.magnitude >>> 52).toNat

def fractionField (x : Binary64) : Nat := (x.magnitude &&& 0xfffffffffffff).toNat

/-- The integer `m` of the magnitude `m · 2 ^ e`; normal numbers have a leading
bit that is not stored. -/
def significand (x : Binary64) : Nat :=
  if x.exponentField = 0 then x.fractionField else 0x10000000000000 + x.fractionField

/-- The integer `e` of the magnitude `m · 2 ^ e`. -/
def exponent (x : Binary64) : Int := Nat.max x.exponentField 1 - 1075

/-- The distance to the lower end of the interval, in quarters of the last
place. Below a power of two the numbers lie twice as close. -/
def quartersBelow (x : Binary64) : Nat :=
  if x.fractionField = 0 ∧ 1 < x.exponentField then 1 else 2

/-- The factors that `digits` and a count of quarters are to be multiplied by so
that `digits · 10 ^ scale` can be compared with that many quarters. -/
def commonFactors (x : Binary64) (scale : Int) : Nat × Nat :=
  let quarter := x.exponent - 2
  (Nat.pow 10 scale.toNat * Nat.pow 2 (-quarter).toNat,
    Nat.pow 2 quarter.toNat * Nat.pow 10 (-scale).toNat)

/-- Whether reading `digits · 10 ^ scale` gives the magnitude of `x`. -/
def readsBack (x : Binary64) (d : Decimal) : Bool :=
  let (perDigit, perQuarter) := x.commonFactors d.scale
  let value := d.digits * perDigit
  let low := (4 * x.significand - x.quartersBelow) * perQuarter
  let high := (4 * x.significand + 2) * perQuarter
  if x.significand % 2 = 0 then low ≤ value && value ≤ high
  else low < value && value < high

/-! ### The shortest decimal -/

/-- The multiple of `10 ^ scale` that stands for the magnitude of `x`, if one
reads back: of the multiple below and the one above the nearer, and the one
above when both are equally near. -/
def onGrid? (x : Binary64) (scale : Int) : Option Decimal :=
  let (perDigit, perQuarter) := x.commonFactors scale
  let value := 4 * x.significand * perQuarter
  let below : Decimal := ⟨value / perDigit, scale⟩
  let above : Decimal := ⟨value / perDigit + 1, scale⟩
  match x.readsBack below, x.readsBack above with
  | true, true => some (if 2 * (value % perDigit) < perDigit then below else above)
  | true, false => some below
  | false, true => some above
  | false, false => none

/-- The powers of ten from the largest that a number can reach down to one that
is finer than the closest spacing of numbers. -/
def scales : List Int := (List.range 633).map fun (i : Nat) => 308 - (i : Int)

/-- The shortest decimal that reads back as the magnitude of a finite number. -/
def shortest (x : Binary64) : Decimal :=
  if x.significand = 0 then ⟨0, 0⟩ else (scales.findSome? x.onGrid?).getD ⟨0, 0⟩

end Binary64

/-! ### Positional notation -/

/-- The digits of `n` with zeros in front up to the given width. -/
def paddedDigits (base width n : Nat) : List Char :=
  let digits := Nat.toDigits base n
  List.replicate (width - digits.length) '0' ++ digits

/-- The decimal written out without an exponent. A whole number has no point,
and a fraction ends in a digit other than zero. -/
def Decimal.positional (d : Decimal) : String :=
  let places := (-d.scale).toNat
  let unit := Nat.pow 10 places
  let whole := d.digits * Nat.pow 10 d.scale.toNat / unit
  let fraction :=
    (paddedDigits 10 places (d.digits % unit)).reverse.dropWhile (· = '0') |>.reverse
  String.ofList (Nat.toDigits 10 whole ++ if places = 0 ∨ fraction = [] then [] else '.' :: fraction)

/-- The text of a number in messages: the shortest digits in positional
notation, with the sign of a zero kept and that of a NaN dropped. -/
def Binary64.text (x : Binary64) : String :=
  if x.isNaN then "NaN"
  else
    let size := if x.isFinite then x.shortest.positional else "inf"
    if x.isNegative then "-" ++ size else size

end Thermoscape
