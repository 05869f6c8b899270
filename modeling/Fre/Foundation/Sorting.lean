import Mathlib.Data.List.Sort
import Mathlib.Order.Defs.LinearOrder

/-!
# Sorting functions

What is known of an unstable library sort: it returns the same elements in
ascending order of their keys.  Elements with equal keys may come in any order.
-/

namespace Foundation

/-- A sort by a key. -/
structure SortFunction {α κ : Type} [LE κ] (key : α → κ) where
  sort : List α → List α
  perm : ∀ values, (sort values).Perm values
  ascending : ∀ values,
    (sort values).Pairwise fun left right => key left ≤ key right

/-- Without equal keys there is one ascending order. -/
theorem eq_of_ascending_of_perm
    {α κ : Type}
    [PartialOrder κ]
    {key : α → κ}
    {left right : List α}
    (leftAscending : left.Pairwise fun first second => key first ≤ key second)
    (rightAscending : right.Pairwise fun first second =>
      key first ≤ key second)
    (distinct : (left.map key).Nodup)
    (perm : left.Perm right) :
    left = right := by
  refine List.Perm.eq_of_pairwise ?_ leftAscending rightAscending perm
  intro first second firstMember secondMember before after
  exact List.inj_on_of_nodup_map distinct firstMember
    (perm.mem_iff.mpr secondMember) (before.antisymm after)

/-- In an ascending list the first value found has the smallest key. -/
theorem key_le_of_find?_eq_some
    {α κ : Type}
    [Preorder κ]
    {key : α → κ}
    {values : List α}
    (ascending : values.Pairwise fun first second => key first ≤ key second)
    {condition : α → Bool}
    {first value : α}
    (found : values.find? condition = some first)
    (member : value ∈ values)
    (holds : condition value = true) :
    key first ≤ key value := by
  obtain ⟨-, before, after, rfl, unmet⟩ :=
    List.find?_eq_some_iff_append.mp found
  rcases List.mem_append.mp member with early | late
  · have fails := unmet value early
    rw [holds] at fails
    exact absurd fails (by decide)
  · rcases List.mem_cons.mp late with rfl | later
    · exact le_rfl
    · exact List.rel_of_pairwise_cons
        (List.pairwise_append.mp ascending).2.1 later

namespace SortFunction

/-- The stable sort is one of them. -/
def stable {α κ : Type} [LinearOrder κ] (key : α → κ) : SortFunction key where
  sort values := values.mergeSort fun left right => key left ≤ key right
  perm values := List.mergeSort_perm values _
  ascending values := by
    have sorted : (values.mergeSort fun left right =>
        decide (key left ≤ key right)).Pairwise fun left right =>
          decide (key left ≤ key right) = true := by
      apply List.pairwise_mergeSort
      · intro first second third firstSecond secondThird
        simp only [decide_eq_true_eq] at firstSecond secondThird ⊢
        exact firstSecond.trans secondThird
      · intro left right
        simpa using le_total (key left) (key right)
    exact sorted.imp fun ordered => of_decide_eq_true ordered

end SortFunction
end Foundation
