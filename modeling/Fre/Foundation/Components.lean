import Fre.Foundation.Machine

/-!
# Components that share nothing

A system of several machines, each with a state of its own, takes a step when
one of them does.  Whatever the others do in between, each of them makes a run
of its own steps.
-/

namespace Foundation
namespace Components

variable {σ α : Type}

/-- One component takes a step. -/
def step (own : Nat → σ → α → Option σ) (states : List σ)
    (action : Nat × α) : Option (List σ) :=
  (states[action.1]?).bind fun state =>
    (own action.1 state action.2).map fun next => states.set action.1 next

/-- The steps of one component. -/
def actionsOf (index : Nat) (actions : List (Nat × α)) : List α :=
  (actions.filter fun action => action.1 = index).map Prod.snd

/-- A component makes a run of its own steps. -/
theorem run_component
    {own : Nat → σ → α → Option σ}
    {states final : List σ}
    {actions : List (Nat × α)}
    (ran : Machine.run (step own) states actions = some final)
    {index : Nat}
    {state : σ}
    (present : states[index]? = some state) :
    ∃ last, final[index]? = some last ∧
      Machine.run (own index) state (actionsOf index actions) = some last := by
  induction actions generalizing states state with
  | nil =>
      rw [Machine.run_nil, Option.some.injEq] at ran
      exact ⟨state, ran ▸ present, rfl⟩
  | cons action rest inductionHypothesis =>
      obtain ⟨next, stepped, restRan⟩ :=
        (Machine.run_cons_eq_some_iff _ _ _ _ _).1 ran
      obtain ⟨before, beforePresent, moved⟩ := Option.bind_eq_some_iff.1 stepped
      obtain ⟨after, ownStepped, rfl⟩ := Option.map_eq_some_iff.1 moved
      by_cases same : action.1 = index
      · subst same
        rw [present, Option.some.injEq] at beforePresent
        subst beforePresent
        obtain ⟨inRange, -⟩ := List.getElem?_eq_some_iff.1 present
        obtain ⟨last, lastPresent, ownRan⟩ :=
          inductionHypothesis restRan (List.getElem?_set_self inRange)
        refine ⟨last, lastPresent, ?_⟩
        simp only [actionsOf, decide_true, List.filter_cons_of_pos,
          List.map_cons]
        exact (Machine.run_cons_eq_some_iff _ _ _ _ _).2
          ⟨after, ownStepped, ownRan⟩
      · obtain ⟨last, lastPresent, ownRan⟩ :=
          inductionHypothesis restRan
            ((List.getElem?_set_ne same).trans present)
        refine ⟨last, lastPresent, ?_⟩
        simpa [actionsOf, same] using ownRan

/-- No step changes the number of components. -/
theorem length_of_run
    {own : Nat → σ → α → Option σ}
    {states final : List σ}
    {actions : List (Nat × α)}
    (ran : Machine.run (step own) states actions = some final) :
    final.length = states.length := by
  have preserved : ∀ (before : List σ) (action : Nat × α) (next : List σ),
      before.length = states.length → step own before action = some next →
        next.length = states.length := by
    intro before action next sameLength stepped
    obtain ⟨state, -, moved⟩ := Option.bind_eq_some_iff.1 stepped
    obtain ⟨after, -, rfl⟩ := Option.map_eq_some_iff.1 moved
    rw [List.length_set, sameLength]
  exact Machine.invariant_of_run preserved rfl ran

end Components
end Foundation
