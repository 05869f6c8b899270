import Mathlib.Data.List.Basic
import Mathlib.Data.Option.Basic

/-!
# What one party sees of a shared machine

A machine answers the actions of several parties.  If the actions of one party
are answered from its own view of the state, and the actions of the others
leave that view alone, then the answers the party gets are those of a machine
that has only the view and only its own actions.  Two runs that contain the
same actions of the party therefore answer it the same.
-/

namespace Foundation
namespace Unwinding

/-- The actions of a run with their answers; none when one is not
answered. -/
def answers (step : σ → α → Option (ω × σ)) :
    σ → List α → Option (List (α × ω))
  | _, [] => some []
  | state, action :: rest =>
      (step state action).bind fun answered =>
        (answers step answered.2 rest).map fun given =>
          (action, answered.1) :: given

/-- The answers to the actions of one party. -/
def answersTo (mine : α → Bool) (given : List (α × ω)) : List (α × ω) :=
  given.filter fun answered => mine answered.1

/-- The party acts on its view, and the others do not touch it. -/
structure Unwinds
    (step : σ → α → Option (ω × σ))
    (viewStep : ν → α → Option (ω × ν))
    (view : σ → ν)
    (mine : α → Bool) : Prop where
  keeps : ∀ {state action answer next}, mine action = false →
    step state action = some (answer, next) → view next = view state
  follows : ∀ {state action answer next}, mine action = true →
    step state action = some (answer, next) →
      viewStep (view state) action = some (answer, view next)

section Runs

variable {step : σ → α → Option (ω × σ)}
  {viewStep : ν → α → Option (ω × ν)} {view : σ → ν} {mine : α → Bool}

theorem answers_cons_eq_some
    {state : σ}
    {action : α}
    {rest : List α}
    {given : List (α × ω)}
    (answered : answers step state (action :: rest) = some given) :
    ∃ answer next later, step state action = some (answer, next) ∧
      answers step next rest = some later ∧
      given = (action, answer) :: later := by
  obtain ⟨⟨answer, next⟩, stepped, restAnswered⟩ :=
    Option.bind_eq_some_iff.1 answered
  obtain ⟨later, laterAnswered, rfl⟩ := Option.map_eq_some_iff.1 restAnswered
  exact ⟨answer, next, later, stepped, laterAnswered, rfl⟩

/-- The answers to the party are those of its view to its own actions. -/
theorem Unwinds.answers_view
    (unwinds : Unwinds step viewStep view mine)
    {state : σ}
    {actions : List α}
    {given : List (α × ω)}
    (answered : answers step state actions = some given) :
    answers viewStep (view state) (actions.filter mine) =
      some (answersTo mine given) := by
  induction actions generalizing state given with
  | nil =>
      cases answered
      rfl
  | cons action rest inductionHypothesis =>
      obtain ⟨answer, next, later, stepped, laterAnswered, rfl⟩ :=
        answers_cons_eq_some answered
      have laterView := inductionHypothesis laterAnswered
      cases own : mine action with
      | true =>
          have followed := unwinds.follows own stepped
          rw [List.filter_cons_of_pos own, answers, followed]
          simp [laterView, answersTo, own]
      | false =>
          rw [← unwinds.keeps own stepped]
          rw [List.filter_cons_of_neg (by simp [own]), laterView]
          simp [answersTo, own]

/-- Runs with the same actions of the party, from states it cannot tell apart,
give it the same answers. -/
theorem Unwinds.answersTo_eq
    (unwinds : Unwinds step viewStep view mine)
    {first second : σ}
    (sameView : view first = view second)
    {firstActions secondActions : List α}
    (sameActions : firstActions.filter mine = secondActions.filter mine)
    {firstGiven secondGiven : List (α × ω)}
    (firstAnswered : answers step first firstActions = some firstGiven)
    (secondAnswered : answers step second secondActions = some secondGiven) :
    answersTo mine firstGiven = answersTo mine secondGiven := by
  have firstView := unwinds.answers_view firstAnswered
  have secondView := unwinds.answers_view secondAnswered
  rw [sameView, sameActions, secondView, Option.some.injEq] at firstView
  exact firstView.symm

end Runs

end Unwinding
end Foundation
