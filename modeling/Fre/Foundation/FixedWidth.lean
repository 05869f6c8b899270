import Mathlib.Algebra.Order.Ring.Int
import Mathlib.Algebra.Order.Ring.Nat

/-!
# Fixed-width arithmetic without overflow

The machine integers wrap around.  Where the exact result fits, the machine
result is the exact one; these are the rewriting rules for that case.
-/

namespace Foundation
namespace FixedWidth

theorem bmod_two_pow_64
    {value : Int}
    (low : -2 ^ 63 ≤ value)
    (high : value < 2 ^ 63) :
    value.bmod (2 ^ 64) = value := by
  apply Int.bmod_eq_of_le_mul_two <;> omega

/-- An integer that is too large by at most one round wraps down once. -/
theorem bmod_two_pow_64_of_large
    {value : Int}
    (low : 2 ^ 63 ≤ value)
    (high : value < 2 ^ 63 + 2 ^ 64) :
    value.bmod (2 ^ 64) = value - 2 ^ 64 := by
  rw [← Int.sub_bmod_right]
  exact bmod_two_pow_64 (by omega) (by omega)

/-- An integer that is too small by at most one round wraps up once. -/
theorem bmod_two_pow_64_of_small
    {value : Int}
    (low : -2 ^ 63 - 2 ^ 64 ≤ value)
    (high : value < -2 ^ 63) :
    value.bmod (2 ^ 64) = value + 2 ^ 64 := by
  rw [← Int.add_bmod_right]
  exact bmod_two_pow_64 (by omega) (by omega)

theorem bmod_two_pow_32
    {value : Int}
    (low : -2 ^ 31 ≤ value)
    (high : value < 2 ^ 31) :
    value.bmod (2 ^ 32) = value := by
  apply Int.bmod_eq_of_le_mul_two <;> omega

theorem toInt_mul_of_fits
    {left right : Int64}
    (low : -2 ^ 63 ≤ left.toInt * right.toInt)
    (high : left.toInt * right.toInt < 2 ^ 63) :
    (left * right).toInt = left.toInt * right.toInt := by
  rw [Int64.toInt_mul, bmod_two_pow_64 low high]

theorem toInt_add_of_fits
    {left right : Int64}
    (low : -2 ^ 63 ≤ left.toInt + right.toInt)
    (high : left.toInt + right.toInt < 2 ^ 63) :
    (left + right).toInt = left.toInt + right.toInt := by
  rw [Int64.toInt_add, bmod_two_pow_64 low high]

theorem toInt_sub_of_fits
    {left right : Int64}
    (low : -2 ^ 63 ≤ left.toInt - right.toInt)
    (high : left.toInt - right.toInt < 2 ^ 63) :
    (left - right).toInt = left.toInt - right.toInt := by
  rw [Int64.toInt_sub, bmod_two_pow_64 low high]

/-- Dividing non-negative numbers by a positive one cannot overflow. -/
theorem toInt_div_of_nonneg
    {left right : Int64}
    (leftNonneg : 0 ≤ left.toInt)
    (rightPositive : 0 < right.toInt) :
    (left / right).toInt = left.toInt / right.toInt := by
  have quotientNonneg : 0 ≤ left.toInt / right.toInt :=
    Int.ediv_nonneg leftNonneg rightPositive.le
  have quotientLe : left.toInt / right.toInt ≤ left.toInt :=
    Int.ediv_le_self _ leftNonneg
  have bound := left.toInt_lt
  rw [Int64.toInt_div, Int.tdiv_eq_ediv_of_nonneg leftNonneg,
    bmod_two_pow_64 (by omega) (by omega)]

theorem toInt_min (left right : Int64) :
    (min left right).toInt = min left.toInt right.toInt := by
  rw [show min left right = if left ≤ right then left else right from rfl]
  split
  · next le =>
      rw [Int64.le_iff_toInt_le] at le
      omega
  · next gt =>
      rw [Int64.le_iff_toInt_le] at gt
      omega

theorem toInt_toInt64 (value : UInt64) :
    value.toInt64.toInt = (value.toNat : Int).bmod (2 ^ 64) := by
  have bits : value.toInt64.toInt = value.toBitVec.toInt := rfl
  rw [bits, BitVec.toInt_eq_toNat_bmod]
  rfl

/-- Reinterpreting a small unsigned number keeps its value. -/
theorem toInt_toInt64_of_lt
    {value : UInt64}
    (small : value.toNat < 2 ^ 63) :
    value.toInt64.toInt = value.toNat := by
  rw [toInt_toInt64, bmod_two_pow_64 (by omega) (by omega)]

/-- An unsigned difference that wraps around is reinterpreted as the exact
difference. -/
theorem toInt_toInt64_sub_of_fits
    {left right : UInt64}
    (low : -2 ^ 63 ≤ (left.toNat : Int) - right.toNat)
    (high : (left.toNat : Int) - right.toNat < 2 ^ 63) :
    (left - right).toInt64.toInt = (left.toNat : Int) - right.toNat := by
  rw [UInt64.toInt64_sub, Int64.toInt_sub, toInt_toInt64, toInt_toInt64,
    Int.bmod_sub_bmod, Int.sub_bmod_bmod, bmod_two_pow_64 low high]

theorem toNat_sub_of_le
    {left right : UInt64}
    (le : right.toNat ≤ left.toNat) :
    (left - right).toNat = left.toNat - right.toNat := by
  have leftBound := left.toNat_lt
  rw [UInt64.toNat_sub]
  omega

end FixedWidth
end Foundation
