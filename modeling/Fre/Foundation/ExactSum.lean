import Fre.Foundation.FloatFormat
import Mathlib.Algebra.Order.BigOperators.Group.List

/-!
# Sums of a column without rounding

A database adds up the numbers of a column in an order of its own.  What is
known of the sum: if no part of the column needs rounding, then it is the exact
one.  Integers whose absolute values add up to less than `2 ^ precision` are such
a column.
-/

namespace Foundation
namespace FloatValue

/-- The number that a finite datum stands for. -/
def toRat : FloatValue → ℚ
  | .finite value => value
  | _ => 0

/-- The exact sum of a column. -/
def total (column : List FloatValue) : ℚ := (column.map toRat).sum

@[simp] theorem total_nil : total [] = 0 := rfl

@[simp] theorem total_cons (value : FloatValue) (rest : List FloatValue) :
    total (value :: rest) = value.toRat + total rest := by
  simp [total]

@[simp] theorem total_append (left right : List FloatValue) :
    total (left ++ right) = total left + total right := by
  simp [total]

/-- A column of integers. -/
def ofIntegers (values : List Int) : List FloatValue :=
  values.map fun value : Int => .finite value

theorem total_ofIntegers (values : List Int) :
    total (ofIntegers values) = (values.sum : Int) := by
  induction values with
  | nil => rfl
  | cons value rest inductionHypothesis =>
      rw [ofIntegers, List.map_cons, total_cons, ← ofIntegers,
        inductionHypothesis, List.sum_cons, Int.cast_add]
      rfl

theorem natAbs_sum_le (values : List Int) :
    values.sum.natAbs ≤ (values.map Int.natAbs).sum := by
  induction values with
  | nil => exact Nat.le_refl 0
  | cons value rest inductionHypothesis =>
      rw [List.sum_cons, List.map_cons, List.sum_cons]
      have triangle := Int.natAbs_add_le value rest.sum
      omega

/-- All data are finite, and the sum of each part is representable. -/
structure ExactColumn (format : FloatFormat) (column : List FloatValue) :
    Prop where
  finite : ∀ value ∈ column, value = .finite value.toRat
  representable : ∀ part : List FloatValue, part.Sublist column →
    format.round (total part) = .finite (total part)

namespace ExactColumn

variable {format : FloatFormat} {column part : List FloatValue}

theorem sublist
    (exact : ExactColumn format column)
    (contained : part.Sublist column) :
    ExactColumn format part where
  finite value member := exact.finite value (contained.subset member)
  representable smaller within :=
    exact.representable smaller (within.trans contained)

/-- Any part of the column in any order. -/
theorem subperm
    (exact : ExactColumn format column)
    (contained : List.Subperm part column) :
    ExactColumn format part where
  finite value member := exact.finite value (contained.subset member)
  representable smaller within := by
    obtain ⟨reordered, permuted, sublist⟩ := within.subperm.trans contained
    have sameTotal : total smaller = total reordered :=
      (permuted.symm.map toRat).sum_eq
    rw [sameTotal]
    exact exact.representable reordered sublist

/-- The sums of two parts are added without rounding. -/
theorem add_total
    {left right : List FloatValue}
    (exact : ExactColumn format (left ++ right)) :
    add format (.finite (total left)) (.finite (total right)) =
      .finite (total left + total right) := by
  have whole := exact.representable (left ++ right) (List.Sublist.refl _)
  rwa [total_append] at whole

/-- Integers whose absolute values add up to less than `2 ^ precision`. -/
theorem of_integers
    {values : List Int}
    (small : (values.map Int.natAbs).sum < 2 ^ format.precision) :
    ExactColumn format (ofIntegers values) where
  finite := by
    intro value member
    obtain ⟨number, -, rfl⟩ := List.mem_map.mp member
    rfl
  representable := by
    intro part contained
    obtain ⟨numbers, within, rfl⟩ := List.sublist_map_iff.mp contained
    have smaller : (numbers.map Int.natAbs).sum ≤ (values.map Int.natAbs).sum :=
      (within.map Int.natAbs).sum_le_sum fun _ _ => Nat.zero_le _
    have total_eq : total (numbers.map fun value : Int => .finite value) =
        (numbers.sum : Int) := total_ofIntegers numbers
    rw [total_eq]
    apply format.round_intCast
    rw [Int.abs_eq_natAbs]
    exact_mod_cast ((natAbs_sum_le numbers).trans smaller).trans_lt small

theorem of_eq_ofIntegers
    (values : List Int)
    (integral : column = ofIntegers values)
    (small : (values.map Int.natAbs).sum < 2 ^ format.precision) :
    ExactColumn format column := by
  rw [integral]
  exact of_integers small

end ExactColumn

/-- What is known of the sum of a column. -/
structure SumFunction (format : FloatFormat) where
  sum : List FloatValue → FloatValue
  exact : ∀ column, ExactColumn format column →
    sum column = .finite (total column)

/-- Adding from left to right is one of them. -/
def SumFunction.sequential (format : FloatFormat) : SumFunction format where
  sum column := column.foldl (add format) (.finite 0)
  exact column exactColumn := by
    suffices accumulated : ∀ done rest : List FloatValue,
        ExactColumn format (done ++ rest) →
          rest.foldl (add format) (.finite (total done)) =
            .finite (total (done ++ rest)) from
      accumulated [] column exactColumn
    intro done rest
    induction rest generalizing done with
    | nil =>
        intro
        rw [List.append_nil, List.foldl_nil]
    | cons value rest inductionHypothesis =>
        intro exactSum
        have split : done ++ value :: rest = (done ++ [value]) ++ rest := by simp
        rw [split] at exactSum ⊢
        have finite := exactSum.finite value (by simp)
        have added := (exactSum.sublist
          (List.sublist_append_left (done ++ [value]) rest)).add_total
        rw [total_cons, total_nil, add_zero, ← finite] at added
        rw [List.foldl_cons, added, ← inductionHypothesis _ exactSum,
          total_append, total_cons, total_nil, add_zero]

end FloatValue
end Foundation
