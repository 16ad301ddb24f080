import Mathlib.Algebra.Order.Field.Power
import Mathlib.Algebra.Order.Field.Rat
import Mathlib.Data.Int.ConditionallyCompleteOrder
import Mathlib.Data.Nat.Bitwise
import Mathlib.Tactic.NormNum
import Mathlib.Tactic.Ring
import Thermoscape.Number.Decimal

/-!
# Thermoscape.Proofs.Number.Value

**The order of words is the order of the numbers that they stand for.** Words are
classified and compared by their bits alone, through the integer `rank`. What a word stands
for is said here by the formula of the format: sign, significand and power of two
(`value?`); an infinity and a NaN stand for no number.

Both are brought together by counting in *grains*, the least positive number. Every
magnitude is a whole number of grains, and the next one is always greater, also where the
exponent goes up by one (`grains_lt_succ`). So `lt` compares numbers (`lt_iff`), and the
bounds that are read off the bits are bounds on a number (`inUnitInterval_iff`).
-/

namespace Thermoscape.Binary64

/-- The number that a word stands for. All exponent bits are set in those that stand for
none. -/
def value? (x : Binary64) : Option ℚ :=
  if x.exponentField = 0x7ff then none
  else some ((if x.isNegative then -1 else 1) * x.significand * 2 ^ x.exponent)

/-! ### The fields of a word -/

theorem exponentField_eq (x : Binary64) :
    x.exponentField = x.magnitude.toNat / 0x10000000000000 := by
  simp [exponentField, Nat.shiftRight_eq_div_pow]

theorem fractionField_eq (x : Binary64) :
    x.fractionField = x.magnitude.toNat % 0x10000000000000 := by
  have mask : (0xfffffffffffff : Nat) = 2 ^ 52 - 1 := rfl
  simp only [fractionField, UInt64.toNat_and, UInt64.reduceToNat, mask,
    Nat.and_two_pow_sub_one_eq_mod]

/-- A word without its sign bit has 63 bits. -/
theorem magnitude_lt (x : Binary64) : x.magnitude.toNat < 0x8000000000000000 := by
  have bound : x.magnitude.toNat ≤ 0x7fffffffffffffff := by
    simp only [magnitude, UInt64.toNat_and]
    exact Nat.and_le_right
  omega

theorem isFinite_iff {x : Binary64} : x.isFinite = true ↔ x.exponentField ≠ 0x7ff := by
  have bound := x.magnitude_lt
  simp only [isFinite, decide_eq_true_eq, UInt64.lt_iff_toNat_lt, UInt64.reduceToNat,
    exponentField_eq]
  omega

theorem isNaN_eq_false {x : Binary64} (h : x.exponentField ≠ 0x7ff) : x.isNaN = false := by
  have bound := x.magnitude_lt
  rw [exponentField_eq] at h
  simp only [isNaN, decide_eq_false_iff_not, UInt64.lt_iff_toNat_lt, UInt64.reduceToNat]
  omega

/-! ### Counting in grains -/

/-- The least positive number. -/
def grain : ℚ := 2 ^ (-1074 : ℤ)

theorem grain_pos : 0 < grain := zpow_pos two_pos _

/-- The number with the magnitude `m`, counted in the least positive number. -/
def grains (m : Nat) : Nat :=
  if m < 0x10000000000000 then m
  else (0x10000000000000 + m % 0x10000000000000) * 2 ^ (m / 0x10000000000000 - 1)

/-- The next magnitude stands for a greater number. -/
theorem grains_lt_succ (m : Nat) : grains m < grains (m + 1) := by
  unfold grains
  by_cases hsmall : m < 0x10000000000000
  · rw [if_pos hsmall]
    split
    · exact Nat.lt_succ_self m
    · -- The first magnitude with an exponent of its own.
      obtain rfl : m = 0xfffffffffffff := by omega
      decide
  · rw [if_neg hsmall, if_neg (by omega)]
    have hpow := Nat.two_pow_pos (m / 0x10000000000000 - 1)
    by_cases hlast : m % 0x10000000000000 = 0xfffffffffffff
    · -- The fraction starts again and the exponent goes up by one.
      have hfraction : (m + 1) % 0x10000000000000 = 0 := by omega
      have hexponent : (m + 1) / 0x10000000000000 - 1 = m / 0x10000000000000 - 1 + 1 := by omega
      rw [hlast, hfraction, hexponent, Nat.pow_succ]
      omega
    · have hfraction : (m + 1) % 0x10000000000000 = m % 0x10000000000000 + 1 := by omega
      have hexponent : (m + 1) / 0x10000000000000 = m / 0x10000000000000 := by omega
      rw [hfraction, hexponent]
      exact Nat.mul_lt_mul_of_pos_right (by omega) hpow

/-- The number with a rank, counted in the least positive number. -/
def rankGrains : Int → Int
  | .ofNat m => grains m
  | .negSucc m => -grains (m + 1)

theorem rankGrains_natCast (m : Nat) : rankGrains m = grains m := rfl

theorem rankGrains_neg (m : Nat) : rankGrains (-m) = -grains m := by
  cases m with
  | zero => rfl
  | succ m => rfl

theorem strictMono_rankGrains : StrictMono rankGrains := by
  refine strictMono_int_of_lt_succ fun r => ?_
  match r with
  | .ofNat m => exact Int.ofNat_lt.mpr (grains_lt_succ m)
  | .negSucc 0 => decide
  | .negSucc (m + 1) => exact Int.neg_lt_neg (Int.ofNat_lt.mpr (grains_lt_succ (m + 1)))

/-- The formula of the format gives a whole number of grains. -/
theorem significand_mul_pow (x : Binary64) :
    (x.significand * 2 ^ x.exponent : ℚ) = grains x.magnitude.toNat * grain := by
  have hexponent := x.exponentField_eq
  have hfraction := x.fractionField_eq
  by_cases hsmall : x.magnitude.toNat < 0x10000000000000
  · have hzero : x.exponentField = 0 := by omega
    have hwhole : x.fractionField = x.magnitude.toNat := by omega
    rw [significand, if_pos hzero, exponent, hzero, hwhole, grains, if_pos hsmall]
    rfl
  · have hpos : ¬ x.exponentField = 0 := by omega
    have hpow : x.exponent = ((x.exponentField - 1 : Nat) : ℤ) + -1074 := by
      simp only [exponent, Nat.max_def]
      split <;> omega
    rw [significand, if_neg hpos, hpow, zpow_add₀ two_ne_zero, zpow_natCast, ← grain, grains,
      if_neg hsmall, hexponent, hfraction]
    push_cast
    ring

/-! ### The order -/

theorem value?_eq {x : Binary64} (h : x.exponentField ≠ 0x7ff) :
    x.value? = some (rankGrains x.rank * grain) := by
  rw [value?, if_neg h, mul_assoc, significand_mul_pow, rank]
  by_cases hsign : x.isNegative = true
  · rw [if_pos hsign, if_pos hsign, rankGrains_neg]
    push_cast
    ring_nf
  · rw [if_neg hsign, if_neg hsign, rankGrains_natCast, one_mul]
    rfl

/-- The finite words are those that stand for a number. -/
theorem isFinite_iff_value {x : Binary64} : x.isFinite = true ↔ ∃ q, x.value? = some q := by
  rw [isFinite_iff, value?]
  by_cases h : x.exponentField = 0x7ff <;> simp [h]

/-- **`lt` compares the numbers that words stand for.** -/
theorem lt_iff {x y : Binary64} {a b : ℚ} (ha : x.value? = some a) (hb : y.value? = some b) :
    x.lt y = true ↔ a < b := by
  have hx : x.exponentField ≠ 0x7ff := isFinite_iff.mp (isFinite_iff_value.mpr ⟨a, ha⟩)
  have hy : y.exponentField ≠ 0x7ff := isFinite_iff.mp (isFinite_iff_value.mpr ⟨b, hb⟩)
  rw [value?_eq hx, Option.some.injEq] at ha
  rw [value?_eq hy, Option.some.injEq] at hb
  rw [← ha, ← hb, mul_lt_mul_iff_left₀ grain_pos, Int.cast_lt, strictMono_rankGrains.lt_iff_lt]
  simp [lt, isNaN_eq_false hx, isNaN_eq_false hy]

theorem rank_lt_of_lt {x y : Binary64} (h : x.lt y = true) : x.rank < y.rank := by
  simp only [lt, Bool.and_eq_true, decide_eq_true_eq] at h
  exact h.2

/-- The words that stand for numbers are those between the infinities. -/
theorem isFinite_iff_rank {x : Binary64} :
    x.isFinite = true ↔ negativeInfinity.rank < x.rank ∧ x.rank < infinity.rank := by
  have bounds : negativeInfinity.rank = -0x7ff0000000000000
      ∧ infinity.rank = 0x7ff0000000000000 := by decide
  have hsize : x.rank.natAbs = x.magnitude.toNat := by
    unfold rank
    split <;> omega
  rw [bounds.1, bounds.2]
  simp only [isFinite, decide_eq_true_eq, UInt64.lt_iff_toNat_lt, UInt64.reduceToNat]
  omega

/-- A word between two that stand for numbers stands for a number. -/
theorem isFinite_of_between {x y z : Binary64} (hx : x.isFinite = true) (hz : z.isFinite = true)
    (hxy : x.lt y = true) (hyz : y.lt z = true) : y.isFinite = true := by
  rw [isFinite_iff_rank] at *
  exact ⟨hx.1.trans (rank_lt_of_lt hxy), (rank_lt_of_lt hyz).trans hz.2⟩

theorem value?_zero : zero.value? = some 0 := by
  have fields : zero.exponentField = 0 ∧ zero.significand = 0 := by decide
  simp [value?, fields]

theorem value?_one : one.value? = some 1 := by
  have fields : one.exponentField = 0x3ff ∧ one.significand = 2 ^ 52 ∧ one.exponent = -52
      ∧ one.isNegative = false := by decide
  norm_num [value?, fields]

/-- A word is in the unit interval when it stands for a number strictly between 0 and 1. -/
theorem inUnitInterval_iff {x : Binary64} :
    x.inUnitInterval = true ↔ ∃ q, x.value? = some q ∧ 0 < q ∧ q < 1 := by
  rw [inUnitInterval, Bool.and_eq_true]
  constructor
  · rintro ⟨hpos, hlt⟩
    obtain ⟨q, hq⟩ := isFinite_iff_value.mp (isFinite_of_between (by decide) (by decide) hpos hlt)
    exact ⟨q, hq, (lt_iff value?_zero hq).mp hpos, (lt_iff hq value?_one).mp hlt⟩
  · rintro ⟨q, hq, hpos, hlt⟩
    exact ⟨(lt_iff value?_zero hq).mpr hpos, (lt_iff hq value?_one).mpr hlt⟩

end Thermoscape.Binary64
