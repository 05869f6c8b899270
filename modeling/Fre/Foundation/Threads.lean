import Mathlib.Algebra.Group.Basic
import Mathlib.Data.List.Basic

/-!
# Counting the threads of a list

A system of many threads keeps them in a list; a step replaces one of them.
Counters of the system are numbers of threads with a property, so the lemmas
say how such a number changes when one thread is replaced.
-/

namespace Foundation
namespace Threads

variable {τ : Type}

/-- Replacing one thread moves the count by the thread removed and the thread
put in. -/
theorem countP_set_add
    (property : τ → Bool)
    {threads : List τ}
    {index : Nat}
    {old : τ}
    (present : threads[index]? = some old)
    (new : τ) :
    (threads.set index new).countP property + (property old).toNat =
      threads.countP property + (property new).toNat := by
  obtain ⟨inRange, rfl⟩ := List.getElem?_eq_some_iff.1 present
  rw [List.countP_set inRange]
  have counted : property threads[index] = true →
      0 < threads.countP property := fun holds =>
    List.countP_pos_iff.2 ⟨_, List.getElem_mem inRange, holds⟩
  cases oldCase : property threads[index] with
  | false => cases property new <;> simp
  | true =>
      have positive := counted oldCase
      cases property new <;> simp <;> omega

theorem countP_cons_toNat
    (property : τ → Bool)
    (thread : τ)
    (threads : List τ) :
    (thread :: threads).countP property =
      threads.countP property + (property thread).toNat := by
  cases holds : property thread with
  | false => simp [holds]
  | true => simp [holds]

/-- A property that splits into two is counted by both counts together. -/
theorem countP_add_countP
    {first second whole : τ → Bool}
    (splits : ∀ thread, (first thread).toNat + (second thread).toNat =
      (whole thread).toNat)
    (threads : List τ) :
    threads.countP first + threads.countP second = threads.countP whole := by
  induction threads with
  | nil => rfl
  | cons thread rest inductionHypothesis =>
      have own := splits thread
      rw [countP_cons_toNat, countP_cons_toNat, countP_cons_toNat]
      omega

/-- `countP_set_add` for a sum over the threads. -/
theorem sum_map_set_add
    {M : Type}
    [AddCommMonoid M]
    (weight : τ → M)
    {threads : List τ}
    {index : Nat}
    {old : τ}
    (present : threads[index]? = some old)
    (new : τ) :
    ((threads.set index new).map weight).sum + weight old =
      (threads.map weight).sum + weight new := by
  induction threads generalizing index with
  | nil => simp at present
  | cons first rest inductionHypothesis =>
      cases index with
      | zero =>
          cases present
          simp only [List.set_cons_zero, List.map_cons, List.sum_cons]
          rw [add_right_comm, add_comm (weight new), add_right_comm]
      | succ index =>
          simp only [List.set_cons_succ, List.map_cons, List.sum_cons,
            add_assoc]
          rw [inductionHypothesis present]

/-- What every thread has, every thread still has after one was replaced by a
thread that has it. -/
theorem forall_mem_set
    {property : τ → Prop}
    {threads : List τ}
    {index : Nat}
    {new : τ}
    (holds : ∀ thread ∈ threads, property thread)
    (newHolds : property new) :
    ∀ thread ∈ threads.set index new, property thread := by
  intro thread member
  rcases List.mem_or_eq_of_mem_set member with old | rfl
  · exact holds thread old
  · exact newHolds

/-- What every thread has, every thread still has after one was added that has
it. -/
theorem forall_mem_concat
    {property : τ → Prop}
    {threads : List τ}
    {new : τ}
    (holds : ∀ thread ∈ threads, property thread)
    (newHolds : property new) :
    ∀ thread ∈ threads ++ [new], property thread :=
  List.forall_mem_append.mpr ⟨holds, List.forall_mem_singleton.mpr newHolds⟩

/-- After a replacement, an index shows the new thread or the old list. -/
theorem getElem?_set_cases
    {threads : List τ}
    {index other : Nat}
    {new thread : τ}
    (found : (threads.set index new)[other]? = some thread) :
    (other = index ∧ thread = new) ∨
      (other ≠ index ∧ threads[other]? = some thread) := by
  by_cases same : index = other
  · subst same
    rw [List.getElem?_set_self'] at found
    cases present : threads[index]? with
    | none => simp [present] at found
    | some old =>
        simp only [present, Option.map_eq_map, Option.map_some,
          Function.const_apply, Option.some.injEq] at found
        exact .inl ⟨rfl, found.symm⟩
  · rw [List.getElem?_set_ne same] at found
    exact .inr ⟨fun equal => same equal.symm, found⟩

/-- After one thread was added, an index shows it or the old list. -/
theorem getElem?_concat_cases
    {threads : List τ}
    {index : Nat}
    {new thread : τ}
    (found : (threads ++ [new])[index]? = some thread) :
    threads[index]? = some thread ∨ thread = new := by
  by_cases inRange : index < threads.length
  · rw [List.getElem?_append_left inRange] at found
    exact .inl found
  · rw [List.getElem?_append_right (Nat.le_of_not_lt inRange)] at found
    exact .inr (List.mem_singleton.mp (List.mem_of_getElem? found))

/-- `forall_mem_set` by index. -/
theorem forall_getElem?_set
    {property : τ → Prop}
    {threads : List τ}
    {index : Nat}
    {new : τ}
    (holds : ∀ (other : Nat) (thread : τ), threads[other]? = some thread →
      property thread)
    (newHolds : property new) :
    ∀ (other : Nat) (thread : τ), (threads.set index new)[other]? = some thread →
      property thread := by
  intro other thread found
  rcases getElem?_set_cases found with ⟨-, rfl⟩ | ⟨-, before⟩
  · exact newHolds
  · exact holds other thread before

/-- If some thread has a property, then it is the one replaced or it is still
there. -/
theorem exists_getElem?_set
    {property : τ → Prop}
    {threads : List τ}
    {index : Nat}
    {old new : τ}
    (present : threads[index]? = some old)
    (holds : ∃ (other : Nat) (thread : τ), threads[other]? = some thread ∧
      property thread) :
    property old ∨
      ∃ (other : Nat) (thread : τ),
        (threads.set index new)[other]? = some thread ∧ property thread := by
  obtain ⟨other, thread, found, threadHolds⟩ := holds
  by_cases same : index = other
  · subst same
    rw [present, Option.some.injEq] at found
    exact .inl (found ▸ threadHolds)
  · refine .inr ⟨other, thread, ?_, threadHolds⟩
    rw [List.getElem?_set_ne same]
    exact found

theorem exists_mem_set
    {property : τ → Prop}
    {threads : List τ}
    {index : Nat}
    {old new : τ}
    (present : threads[index]? = some old)
    (holds : ∃ thread ∈ threads, property thread) :
    property old ∨ ∃ thread ∈ threads.set index new, property thread := by
  obtain ⟨thread, member, threadHolds⟩ := holds
  obtain ⟨other, found⟩ := List.mem_iff_getElem?.1 member
  rcases exists_getElem?_set present ⟨other, thread, found, threadHolds⟩ with
    own | ⟨position, another, stillFound, anotherHolds⟩
  · exact .inl own
  · exact .inr ⟨another, List.mem_of_getElem? stillFound, anotherHolds⟩

end Threads
end Foundation
