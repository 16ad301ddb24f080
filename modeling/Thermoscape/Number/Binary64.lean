/-!
# Thermoscape.Number.Binary64

Double-precision numbers, the values of temperatures and of simulated time.

A value is its sixty-four bits. Storing, copying and comparing a value as data
therefore keeps every bit of it, NaN payloads and the sign of zero included;
only the arithmetic operations interpret the word. Design points:

* **Equality is equality of the stored word** (`DecidableEq`). The comparison
  by value, where a NaN differs from itself and both zeros agree, is the
  separate `sameValue`.
* **Order and classification read the word.** `isNaN`, `isFinite`, `lt`, `min`
  and `max` are functions of the bits through the integer `rank`, so facts
  about them need no theory of rounding.
* **Arithmetic is the hardware's**, rounded to nearest, ties to even.
-/

namespace Thermoscape

/-- A double-precision number, as the word that stores it. -/
structure Binary64 where
  /-- Sign, exponent and fraction, most significant bit first. -/
  bits : UInt64
  deriving DecidableEq, Inhabited

namespace Binary64

/-! ### Named values -/

def zero : Binary64 := ⟨0x0000000000000000⟩

/-- The zero with the sign bit set, which is the neutral element of addition. -/
def negativeZero : Binary64 := ⟨0x8000000000000000⟩

def half : Binary64 := ⟨0x3fe0000000000000⟩

def one : Binary64 := ⟨0x3ff0000000000000⟩

def two : Binary64 := ⟨0x4000000000000000⟩

def infinity : Binary64 := ⟨0x7ff0000000000000⟩

def negativeInfinity : Binary64 := ⟨0xfff0000000000000⟩

/-! ### Reading the word -/

/-- The stored word without its sign bit. -/
def magnitude (x : Binary64) : UInt64 := x.bits &&& 0x7fffffffffffffff

/-- All exponent bits are set and the fraction is not zero. -/
def isNaN (x : Binary64) : Bool := 0x7ff0000000000000 < x.magnitude

/-- Neither an infinity nor a NaN. -/
def isFinite (x : Binary64) : Bool := x.magnitude < 0x7ff0000000000000

def isNegative (x : Binary64) : Bool := 0x8000000000000000 ≤ x.bits

/-- An integer that orders the numbers as their values do; both zeros are at 0. -/
def rank (x : Binary64) : Int :=
  if x.isNegative then - (x.magnitude.toNat : Int) else x.magnitude.toNat

/-- The order of values; a NaN is below nothing and above nothing. -/
def lt (x y : Binary64) : Bool :=
  !x.isNaN && !y.isNaN && x.rank < y.rank

/-- Equality of values: a NaN differs from every number, and both zeros are equal. -/
def sameValue (x y : Binary64) : Bool :=
  !x.isNaN && !y.isNaN && x.rank == y.rank

/-- The smaller of two numbers. A NaN is passed over in favour of the other one. -/
def min (x y : Binary64) : Binary64 :=
  if x.isNaN then y else if y.lt x then y else x

/-- The larger of two numbers. A NaN is passed over in favour of the other one. -/
def max (x y : Binary64) : Binary64 :=
  if x.isNaN then y else if x.lt y then y else x

/-- Strictly between 0 and 1. -/
def inUnitInterval (x : Binary64) : Bool := zero.lt x && x.lt one

/-! ### Arithmetic -/

/-- The word that stores a computed number. -/
@[inline] def ofFloat (x : Float) : Binary64 := ⟨x.toBits⟩

@[inline] def toFloat (x : Binary64) : Float := Float.ofBits x.bits

/-- The number nearest to a natural number. -/
@[inline] def ofNat (n : Nat) : Binary64 := ofFloat (Float.ofNat n)

@[inline] def sqrt (x : Binary64) : Binary64 := ofFloat x.toFloat.sqrt

instance : Add Binary64 := ⟨fun x y => ofFloat (x.toFloat + y.toFloat)⟩
instance : Sub Binary64 := ⟨fun x y => ofFloat (x.toFloat - y.toFloat)⟩
instance : Mul Binary64 := ⟨fun x y => ofFloat (x.toFloat * y.toFloat)⟩
instance : Div Binary64 := ⟨fun x y => ofFloat (x.toFloat / y.toFloat)⟩

end Binary64

end Thermoscape
