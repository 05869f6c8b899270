import Mathlib.Data.List.TakeWhile

/-!
# Binary search for a lower bound

The search of the C++ library: it halves an interval by comparing the item in
the middle.  Its result has a meaning only where the items below the value come
before all others; there it is the number of the items below.
-/

namespace Foundation
namespace LowerBound

variable {α : Type}

/-- The loop of `std::lower_bound`, on the `count` items from `first` on. -/
def search (below : α → Bool) (items : List α) : Nat → Nat → Nat → Nat
  | 0, first, _ => first
  | fuel + 1, first, count =>
      if count = 0 then first
      else
        let half := count / 2
        match items[first + half]? with
        | none => first
        | some item =>
            if below item then
              search below items fuel (first + half + 1) (count - (half + 1))
            else search below items fuel first half

/-- `std::lower_bound`, with the comparison to the value as a test of an item.
Each round makes the interval smaller, so its length bounds the rounds. -/
def lowerBound (below : α → Bool) (items : List α) : Nat :=
  search below items items.length 0 items.length

/-- The items below come before all others. -/
def Partitioned (below : α → Bool) (items : List α) : Prop :=
  items.Pairwise fun first second => below second = true → below first = true

/-- The interval always contains the end of the items below. -/
theorem search_eq
    {below : α → Bool}
    {front back : List α}
    (allBelow : ∀ item ∈ front, below item = true)
    (noneBelow : ∀ item ∈ back, below item = false)
    {fuel first count : Nat}
    (enough : count ≤ fuel)
    (reached : first ≤ front.length)
    (ahead : front.length ≤ first + count)
    (inRange : first + count ≤ (front ++ back).length) :
    search below (front ++ back) fuel first count = front.length := by
  induction fuel generalizing first count with
  | zero =>
      rw [search]
      omega
  | succ fuel inductionHypothesis =>
      rw [search]
      split
      next => omega
      next notEmpty =>
        have middleInRange : first + count / 2 < (front ++ back).length := by
          omega
        dsimp only
        rw [List.getElem?_eq_getElem middleInRange]
        dsimp only
        by_cases inFront : first + count / 2 < front.length
        · rw [List.getElem_append_left inFront,
            if_pos (allBelow _ (List.getElem_mem inFront))]
          exact inductionHypothesis (by omega) (by omega) (by omega) (by omega)
        · have notBelow : below (front ++ back)[first + count / 2] = false := by
            rw [List.getElem_append_right (Nat.le_of_not_lt inFront)]
            exact noneBelow _ (List.getElem_mem _)
          rw [notBelow, if_neg Bool.false_ne_true]
          exact inductionHypothesis (by omega) reached (by omega) (by omega)

theorem lowerBound_append
    {below : α → Bool}
    {front back : List α}
    (allBelow : ∀ item ∈ front, below item = true)
    (noneBelow : ∀ item ∈ back, below item = false) :
    lowerBound below (front ++ back) = front.length := by
  refine search_eq allBelow noneBelow (Nat.le_refl _) (Nat.zero_le _) ?_ ?_
  · rw [List.length_append]
    omega
  · omega

/-- Past the first item that is not below, no item is. -/
theorem Partitioned.dropWhile
    {below : α → Bool}
    {items : List α}
    (partitioned : Partitioned below items) :
    ∀ item ∈ items.dropWhile below, below item = false := by
  induction partitioned with
  | nil => simp
  | @cons first rest before _ inductionHypothesis =>
      cases firstBelow : below first with
      | true =>
          rw [List.dropWhile_cons_of_pos firstBelow]
          exact inductionHypothesis
      | false =>
          rw [List.dropWhile_cons_of_neg (by simp [firstBelow])]
          intro item member
          rcases List.mem_cons.mp member with rfl | later
          · exact firstBelow
          · cases itemBelow : below item with
            | false => rfl
            | true => exact (before item later itemBelow).symm.trans firstBelow

/-- On a partitioned list the search splits off the items below. -/
theorem lowerBound_eq
    {below : α → Bool}
    {items : List α}
    (partitioned : Partitioned below items) :
    lowerBound below items = (items.takeWhile below).length := by
  have allBelow : ∀ item ∈ items.takeWhile below, below item = true :=
    fun _ member => List.mem_takeWhile_imp member
  have found := lowerBound_append allBelow partitioned.dropWhile
  rwa [List.takeWhile_append_dropWhile] at found

/-- Insertion after the front of a list. -/
theorem insertIdx_append (front back : List α) (item : α) :
    (front ++ back).insertIdx front.length item = front ++ item :: back := by
  induction front with
  | nil => rfl
  | cons first front inductionHypothesis =>
      rw [List.cons_append, List.length_cons, List.insertIdx_succ_cons,
        inductionHypothesis, List.cons_append]

/-- Insertion at the lower bound of a partitioned list. -/
theorem insertIdx_lowerBound
    {below : α → Bool}
    {items : List α}
    (partitioned : Partitioned below items)
    (item : α) :
    items.insertIdx (lowerBound below items) item =
      items.takeWhile below ++ item :: items.dropWhile below := by
  rw [lowerBound_eq partitioned, ← insertIdx_append,
    List.takeWhile_append_dropWhile]

end LowerBound
end Foundation
