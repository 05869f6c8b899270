import Mathlib.Data.Int.Log
import Mathlib.Data.Rat.Floor
import Mathlib.Algebra.Ring.Int.Parity

/-!
# Binary floating-point values

A value of a binary format is a rational number, an infinity or not a number;
the two zeros are one value, since no comparison tells them apart.  Sums are
rounded to the nearest representable number, ties to even, as IEEE 754 has it.
What the developments above need is that counting by ones is exact as long as
the count fits into the significand.
-/

namespace Foundation

/-- A floating-point datum by its value. -/
inductive FloatValue
  | nan
  | infinity (negative : Bool)
  | finite (value : ℚ)
  deriving DecidableEq

/-- Parameters of a binary format: bits of the significand, exponent of the
smallest positive number, and exponent from which on numbers overflow.  The
integers that fit into the significand are in range. -/
structure FloatFormat where
  precision : Nat
  quantum : Int
  overflow : Int
  precisionPositive : 0 < precision
  quantumNonpos : quantum ≤ 0
  overflowLarge : (precision : Int) ≤ overflow

namespace FloatFormat

/-- IEEE 754 double precision. -/
def binary64 : FloatFormat where
  precision := 53
  quantum := -1074
  overflow := 1024
  precisionPositive := by decide
  quantumNonpos := by decide
  overflowLarge := by decide

/-- IEEE 754 single precision. -/
def binary32 : FloatFormat where
  precision := 24
  quantum := -149
  overflow := 128
  precisionPositive := by decide
  quantumNonpos := by decide
  overflowLarge := by decide

/-- Nearest integer, ties to even. -/
def roundHalfEven (value : ℚ) : Int :=
  let fraction := value - ⌊value⌋
  if fraction < 1 / 2 then ⌊value⌋
  else if 1 / 2 < fraction then ⌊value⌋ + 1
  else if ⌊value⌋ % 2 = 0 then ⌊value⌋ else ⌊value⌋ + 1

@[simp] theorem roundHalfEven_intCast (value : Int) :
    roundHalfEven (value : ℚ) = value := by
  unfold roundHalfEven
  rw [Int.floor_intCast, sub_self, if_pos (by norm_num)]

/-- Exponent of the last place of a number near `value`. -/
def lastPlace (format : FloatFormat) (value : ℚ) : Int :=
  max (Int.log 2 |value| - (format.precision - 1)) format.quantum

/-- Round a rational number to the format. -/
def round (format : FloatFormat) (value : ℚ) : FloatValue :=
  let place := format.lastPlace value
  let rounded := roundHalfEven (value / 2 ^ place) * (2 : ℚ) ^ place
  if (2 : ℚ) ^ format.overflow ≤ |rounded| then .infinity (rounded < 0)
  else .finite rounded

/-- Rounding keeps a number that is a whole multiple of its last place and
below the overflow bound. -/
theorem round_eq_finite
    (format : FloatFormat)
    {value : ℚ}
    (units : Int)
    (multiple : value = units * 2 ^ format.lastPlace value)
    (below : |value| < 2 ^ format.overflow) :
    format.round value = .finite value := by
  have placePositive : (0 : ℚ) < 2 ^ format.lastPlace value :=
    zpow_pos (by norm_num) _
  have quotient : value / 2 ^ format.lastPlace value = units := by
    rw [div_eq_iff placePositive.ne']
    exact multiple
  unfold round
  dsimp only
  rw [quotient, roundHalfEven_intCast, ← multiple, if_neg (not_le.mpr below)]

/-- The last place of a number below `2 ^ precision` is not above the units
place. -/
theorem lastPlace_nonpos
    (format : FloatFormat)
    {value : ℚ}
    (small : |value| < 2 ^ format.precision) :
    format.lastPlace value ≤ 0 := by
  refine max_le ?_ format.quantumNonpos
  have precisionPositive := format.precisionPositive
  by_cases zero : value = 0
  · subst zero
    rw [abs_zero, Int.log_zero_right]
    omega
  · have logBound : Int.log 2 |value| < format.precision := by
      rw [← Int.lt_zpow_iff_log_lt (by norm_num) (abs_pos.mpr zero)]
      exact_mod_cast small
    omega

/-- Integers below `2 ^ precision` are representable. -/
theorem round_intCast
    (format : FloatFormat)
    {value : Int}
    (small : |value| < 2 ^ format.precision) :
    format.round value = .finite value := by
  have smallRat : |(value : ℚ)| < 2 ^ format.precision := by exact_mod_cast small
  have place := format.lastPlace_nonpos smallRat
  refine format.round_eq_finite
    (value * 2 ^ (-format.lastPlace (value : ℚ)).toNat) ?_ ?_
  · rw [Int.cast_mul, Int.cast_pow, Int.cast_ofNat, mul_assoc, ← zpow_natCast,
      Int.toNat_of_nonneg (by omega), ← zpow_add₀ (by norm_num),
      neg_add_cancel, zpow_zero, mul_one]
  · calc
      |(value : ℚ)| < 2 ^ format.precision := smallRat
      _ = (2 : ℚ) ^ (format.precision : Int) := (zpow_natCast _ _).symm
      _ ≤ 2 ^ format.overflow :=
        zpow_le_zpow_right₀ (by norm_num) format.overflowLarge

end FloatFormat

namespace FloatValue

/-- Rounded sum. -/
def add (format : FloatFormat) : FloatValue → FloatValue → FloatValue
  | .nan, _ => .nan
  | _, .nan => .nan
  | .infinity left, .infinity right =>
      if left = right then .infinity left else .nan
  | .infinity left, .finite _ => .infinity left
  | .finite _, .infinity right => .infinity right
  | .finite left, .finite right => format.round (left + right)

/-- The comparison `left < right`, false as soon as one side is not a
number. -/
def lt : FloatValue → FloatValue → Bool
  | .nan, _ => false
  | _, .nan => false
  | .infinity left, .infinity right => left && !right
  | .infinity left, .finite _ => left
  | .finite _, .infinity right => !right
  | .finite left, .finite right => left < right

/-- The comparison `left ≤ right`, false as soon as one side is not a
number. -/
def le : FloatValue → FloatValue → Bool
  | .nan, _ => false
  | _, .nan => false
  | .infinity left, .infinity right => left || !right
  | .infinity left, .finite _ => left
  | .finite _, .infinity right => !right
  | .finite left, .finite right => left ≤ right

theorem le_self {value : FloatValue} (number : value ≠ .nan) :
    value.le value = true := by
  cases value with
  | nan => exact absurd rfl number
  | infinity negative => cases negative <;> rfl
  | finite value => simp [le]

theorem lt_self (value : FloatValue) : value.lt value = false := by
  cases value with
  | nan => rfl
  | infinity negative => cases negative <;> rfl
  | finite value => simp [lt]

theorem lt_infinity
    {value : FloatValue}
    (number : value ≠ .nan)
    (notInfinity : value ≠ .infinity false) :
    value.lt (.infinity false) = true := by
  cases value with
  | nan => exact absurd rfl number
  | infinity negative =>
      cases negative with
      | false => exact absurd rfl notInfinity
      | true => rfl
  | finite value => rfl

theorem lt_of_le_of_ne
    {left right : FloatValue}
    (ordered : left.le right = true)
    (different : left ≠ right) :
    left.lt right = true := by
  match left, right with
  | .nan, _ => exact absurd ordered (by simp [le])
  | .infinity _, .nan => exact absurd ordered (by simp [le])
  | .finite _, .nan => exact absurd ordered (by simp [le])
  | .infinity leftNegative, .infinity rightNegative =>
      cases leftNegative <;> cases rightNegative <;> simp_all [le, lt]
  | .infinity _, .finite _ => exact ordered
  | .finite _, .infinity _ => exact ordered
  | .finite leftValue, .finite rightValue =>
      simp only [le, decide_eq_true_eq] at ordered
      simp only [lt, decide_eq_true_eq]
      exact ordered.lt_of_ne fun same => different (by rw [same])

/-- What is below is not above. -/
theorem le_eq_false_of_lt
    {left right : FloatValue}
    (ordered : left.lt right = true) :
    right.le left = false := by
  cases left <;> cases right <;> simp_all [lt, le]

/-- Rounded quotient by a positive count, which is itself rounded to the
format. -/
def divCount
    (format : FloatFormat)
    (value : FloatValue)
    (count : Nat) : FloatValue :=
  match value, format.round count with
  | .nan, _ => .nan
  | _, .nan => .nan
  | .infinity _, .infinity _ => .nan
  | .infinity negative, .finite _ => .infinity negative
  | .finite _, .infinity _ => .finite 0
  | .finite dividend, .finite divisor => format.round (dividend / divisor)

/-- Adding one to a count is exact while the result is below
`2 ^ precision`. -/
theorem add_one_natCast
    (format : FloatFormat)
    {count : Nat}
    (small : count + 1 < 2 ^ format.precision) :
    add format (.finite count) (.finite 1) = .finite ((count + 1 : Nat) : ℚ) := by
  have smallInt : |((count + 1 : Nat) : Int)| < 2 ^ format.precision := by
    rw [abs_of_nonneg (by positivity)]
    exact_mod_cast small
  have rounded := format.round_intCast smallInt
  rw [add]
  push_cast at rounded ⊢
  exact rounded

end FloatValue
end Foundation
