import Mathlib.Data.List.Basic
import Mathlib.Data.Option.Basic

/-!
# Runs of a labelled step function

A machine is given by a step function `step : σ → α → Option σ`; an action
that is not enabled in a state yields `none`.  A run is a finite list of
actions, so every interleaving of several parties is one list.  This module
has the composition laws of runs and the invariant rules used everywhere
else: what one step preserves, a whole run preserves.
-/

namespace Foundation
namespace Machine

/-- Execute a list of actions, failing as soon as one is not enabled. -/
def run (step : σ → α → Option σ) : σ → List α → Option σ
  | state, [] => some state
  | state, action :: rest =>
      (step state action).bind fun next => run step next rest

@[simp] theorem run_nil (step : σ → α → Option σ) (state : σ) :
    run step state [] = some state := rfl

theorem run_cons_eq_some_iff
    (step : σ → α → Option σ)
    (state final : σ)
    (action : α)
    (rest : List α) :
    run step state (action :: rest) = some final ↔
      ∃ next, step state action = some next ∧
        run step next rest = some final := by
  simp [run, Option.bind_eq_some_iff]

/-- Running a concatenation is running the two parts in order. -/
theorem run_append
    (step : σ → α → Option σ)
    (state : σ)
    (first second : List α) :
    run step state (first ++ second) =
      (run step state first).bind fun middle => run step middle second := by
  induction first generalizing state with
  | nil => rfl
  | cons action rest inductionHypothesis =>
      cases stepped : step state action with
      | none => simp [run, stepped]
      | some next => simpa [run, stepped] using inductionHypothesis next

theorem run_append_eq_some_iff
    (step : σ → α → Option σ)
    (state final : σ)
    (first second : List α) :
    run step state (first ++ second) = some final ↔
      ∃ middle, run step state first = some middle ∧
        run step middle second = some final := by
  rw [run_append, Option.bind_eq_some_iff]

/-- Every step of the run is taken from a state that allows it. -/
def RunMeets
    (step : σ → α → Option σ)
    (allowed : σ → α → Prop) : σ → List α → Prop
  | _, [] => True
  | state, action :: rest =>
      allowed state action ∧
        ∀ next, step state action = some next → RunMeets step allowed next rest

instance RunMeets.decidable
    (step : σ → α → Option σ)
    (allowed : σ → α → Prop)
    [∀ state action, Decidable (allowed state action)] :
    ∀ state actions, Decidable (RunMeets step allowed state actions)
  | _, [] => .isTrue trivial
  | state, action :: rest =>
      have : DecidablePred fun next => RunMeets step allowed next rest :=
        fun next => RunMeets.decidable step allowed next rest
      inferInstanceAs (Decidable (allowed state action ∧
        ∀ next ∈ step state action, RunMeets step allowed next rest))

/-- A property of states that every allowed step preserves holds after every
run made of allowed steps. -/
theorem invariant_of_run_of_meets
    {step : σ → α → Option σ}
    {allowed : σ → α → Prop}
    {invariant : σ → Prop}
    (preserved : ∀ state action next,
      invariant state → allowed state action →
        step state action = some next → invariant next)
    {state final : σ}
    {actions : List α}
    (start : invariant state)
    (meets : RunMeets step allowed state actions)
    (ran : run step state actions = some final) :
    invariant final := by
  induction actions generalizing state with
  | nil =>
      rw [run_nil, Option.some.injEq] at ran
      exact ran ▸ start
  | cons action rest inductionHypothesis =>
      obtain ⟨next, stepped, restRan⟩ :=
        (run_cons_eq_some_iff step state final action rest).1 ran
      obtain ⟨allowedHere, restMeets⟩ := meets
      exact inductionHypothesis
        (preserved state action next start allowedHere stepped)
        (restMeets next stepped) restRan

/-- A condition that holds of every step is met by every run. -/
theorem runMeets_of_forall
    {step : σ → α → Option σ}
    {allowed : σ → α → Prop}
    (always : ∀ state action, allowed state action)
    (state : σ)
    (actions : List α) :
    RunMeets step allowed state actions := by
  induction actions generalizing state with
  | nil => trivial
  | cons action rest inductionHypothesis =>
      exact ⟨always state action, fun next _ => inductionHypothesis next⟩

/-- A condition on the actions alone is met by a run of such actions. -/
theorem runMeets_of_forall_mem
    {step : σ → α → Option σ}
    {property : α → Prop}
    {actions : List α}
    (members : ∀ action ∈ actions, property action)
    (state : σ) :
    RunMeets step (fun _ action => property action) state actions := by
  induction actions generalizing state with
  | nil => trivial
  | cons action rest inductionHypothesis =>
      refine ⟨members action List.mem_cons_self, fun next _ => ?_⟩
      exact inductionHypothesis
        (fun other member => members other (List.mem_cons_of_mem action member))
        next

theorem RunMeets.and
    {step : σ → α → Option σ}
    {first second : σ → α → Prop}
    {state : σ}
    {actions : List α}
    (firstMeets : RunMeets step first state actions)
    (secondMeets : RunMeets step second state actions) :
    RunMeets step (fun state action => first state action ∧ second state action)
      state actions := by
  induction actions generalizing state with
  | nil => trivial
  | cons action rest inductionHypothesis =>
      refine ⟨⟨firstMeets.1, secondMeets.1⟩, fun next stepped => ?_⟩
      exact inductionHypothesis (firstMeets.2 next stepped)
        (secondMeets.2 next stepped)

/-- A property of states that every step preserves holds after every run. -/
theorem invariant_of_run
    {step : σ → α → Option σ}
    {invariant : σ → Prop}
    (preserved : ∀ state action next,
      invariant state → step state action = some next → invariant next)
    {state final : σ}
    {actions : List α}
    (start : invariant state)
    (ran : run step state actions = some final) :
    invariant final := by
  have meets : RunMeets step (fun _ _ => True) state actions :=
    runMeets_of_forall (fun _ _ => trivial) state actions
  exact invariant_of_run_of_meets
    (fun state action next holds _ => preserved state action next holds)
    start meets ran

/-- A property of states and of the actions that have led to them. -/
theorem invariant_of_history
    {step : σ → α → Option σ}
    {invariant : List α → σ → Prop}
    (preserved : ∀ before state action next,
      invariant before state → step state action = some next →
        invariant (before ++ [action]) next)
    {state final : σ}
    {before actions : List α}
    (start : invariant before state)
    (ran : run step state actions = some final) :
    invariant (before ++ actions) final := by
  induction actions generalizing before state with
  | nil =>
      cases ran
      rwa [List.append_nil]
  | cons action rest inductionHypothesis =>
      obtain ⟨next, stepped, restRan⟩ :=
        (run_cons_eq_some_iff step state final action rest).1 ran
      have moved := preserved before state action next start stepped
      have later := inductionHypothesis moved restRan
      rwa [List.append_assoc, List.singleton_append] at later

/-- The number of steps of a run that count. -/
def countSteps
    (step : σ → α → Option σ)
    (counts : σ → α → σ → Bool) : σ → List α → Nat
  | _, [] => 0
  | state, action :: rest =>
      match step state action with
      | none => 0
      | some next =>
          (counts state action next).toNat + countSteps step counts next rest

/-- What every counting step raises by one, and no other step changes, counts the
steps of a run. -/
theorem eq_add_countSteps
    {step : σ → α → Option σ}
    {counts : σ → α → σ → Bool}
    {value : σ → Nat}
    (moves : ∀ state action next, step state action = some next →
      value next = value state + (counts state action next).toNat)
    {state final : σ}
    {actions : List α}
    (ran : run step state actions = some final) :
    value final = value state + countSteps step counts state actions := by
  induction actions generalizing state with
  | nil =>
      rw [run_nil, Option.some.injEq] at ran
      rw [ran]
      rfl
  | cons action rest inductionHypothesis =>
      obtain ⟨next, stepped, restRan⟩ :=
        (run_cons_eq_some_iff step state final action rest).1 ran
      rw [inductionHypothesis restRan, moves state action next stepped, countSteps,
        stepped, Nat.add_assoc]

/-- The property holds of every state the run goes through, the first and the
last included. -/
def Throughout
    (step : σ → α → Option σ)
    (property : σ → Prop) : σ → List α → Prop
  | state, [] => property state
  | state, action :: rest =>
      property state ∧
        ∀ next, step state action = some next →
          Throughout step property next rest

instance Throughout.decidable
    (step : σ → α → Option σ)
    (property : σ → Prop)
    [DecidablePred property] :
    ∀ state actions, Decidable (Throughout step property state actions)
  | state, [] => inferInstanceAs (Decidable (property state))
  | state, action :: rest =>
      have : DecidablePred fun next => Throughout step property next rest :=
        fun next => Throughout.decidable step property next rest
      inferInstanceAs (Decidable (property state ∧
        ∀ next ∈ step state action, Throughout step property next rest))

theorem Throughout.holds_at_start
    {step : σ → α → Option σ}
    {property : σ → Prop}
    {state : σ}
    {actions : List α}
    (throughout : Throughout step property state actions) :
    property state := by
  cases actions with
  | nil => exact throughout
  | cons action rest => exact throughout.1

/-- The invariant rule for runs that stay inside a property: it may be assumed
before and after each step. -/
theorem invariant_of_throughout
    {step : σ → α → Option σ}
    {property invariant : σ → Prop}
    (preserved : ∀ state action next,
      invariant state → property state → property next →
        step state action = some next → invariant next)
    {state final : σ}
    {actions : List α}
    (start : invariant state)
    (throughout : Throughout step property state actions)
    (ran : run step state actions = some final) :
    invariant final := by
  induction actions generalizing state with
  | nil =>
      rw [run_nil, Option.some.injEq] at ran
      exact ran ▸ start
  | cons action rest inductionHypothesis =>
      obtain ⟨next, stepped, restRan⟩ :=
        (run_cons_eq_some_iff step state final action rest).1 ran
      obtain ⟨here, after⟩ := throughout
      have nextThroughout := after next stepped
      exact inductionHypothesis
        (preserved state action next start here
          nextThroughout.holds_at_start stepped)
        nextThroughout restRan

theorem Throughout.holds_at_end
    {step : σ → α → Option σ}
    {property : σ → Prop}
    {state final : σ}
    {actions : List α}
    (throughout : Throughout step property state actions)
    (ran : run step state actions = some final) :
    property final := by
  refine invariant_of_throughout ?_ throughout.holds_at_start throughout ran
  intro before action next _ _ holdsNext _
  exact holdsNext

/-- The rule for exact conditions: if one step from a state with the property
leads to a state with the property exactly when the step is allowed, then the
property holds throughout a run exactly when all its steps are allowed. -/
theorem throughout_iff_runMeets
    {step : σ → α → Option σ}
    {allowed : σ → α → Prop}
    {property invariant : σ → Prop}
    {condition : α → Prop}
    (preserved : ∀ state action next,
      invariant state → condition action → step state action = some next →
        invariant next)
    (exactStep : ∀ state action next,
      invariant state → condition action → property state →
        step state action = some next →
          (property next ↔ allowed state action))
    {state final : σ}
    {actions : List α}
    (start : invariant state)
    (members : ∀ action ∈ actions, condition action)
    (holds : property state)
    (ran : run step state actions = some final) :
    Throughout step property state actions ↔
      RunMeets step allowed state actions := by
  induction actions generalizing state with
  | nil => exact iff_of_true holds trivial
  | cons action rest inductionHypothesis =>
      obtain ⟨next, stepped, restRan⟩ :=
        (run_cons_eq_some_iff step state final action rest).1 ran
      have meetsCondition := members action List.mem_cons_self
      have here := exactStep state action next start meetsCondition holds stepped
      have nextStart := preserved state action next start meetsCondition stepped
      replace inductionHypothesis {middle : σ} (middleStart : invariant middle) :=
        inductionHypothesis middleStart fun other member =>
          members other (List.mem_cons_of_mem action member)
      simp only [Throughout, RunMeets, stepped, Option.some.injEq, forall_eq']
      constructor
      · rintro ⟨-, throughout⟩
        have nextHolds := throughout.holds_at_start
        exact ⟨here.1 nextHolds,
          (inductionHypothesis nextStart nextHolds restRan).1 throughout⟩
      · rintro ⟨isAllowed, meets⟩
        have nextHolds := here.2 isAllowed
        exact ⟨holds,
          (inductionHypothesis nextStart nextHolds restRan).2 meets⟩

/-- Two conditions on steps that agree wherever an invariant holds are met by
the same runs, if the invariant survives the steps that meet them. -/
theorem runMeets_congr
    {step : σ → α → Option σ}
    {first second side : σ → α → Prop}
    {invariant : σ → Prop}
    {condition : α → Prop}
    (preserved : ∀ state action next,
      invariant state → condition action → second state action →
        step state action = some next → invariant next)
    (agree : ∀ state action next,
      invariant state → condition action → side state action →
        step state action = some next →
          (first state action ↔ second state action))
    {state final : σ}
    {actions : List α}
    (start : invariant state)
    (members : ∀ action ∈ actions, condition action)
    (sides : RunMeets step side state actions)
    (ran : run step state actions = some final) :
    RunMeets step first state actions ↔ RunMeets step second state actions := by
  induction actions generalizing state with
  | nil => rfl
  | cons action rest inductionHypothesis =>
      obtain ⟨next, stepped, restRan⟩ :=
        (run_cons_eq_some_iff step state final action rest).1 ran
      have meetsCondition := members action List.mem_cons_self
      simp only [RunMeets, stepped, Option.some.injEq, forall_eq']
      rw [agree state action next start meetsCondition sides.1 stepped]
      apply and_congr_right
      intro meets
      exact inductionHypothesis
        (preserved state action next start meetsCondition meets stepped)
        (fun other member => members other (List.mem_cons_of_mem action member))
        (sides.2 next stepped) restRan

/-- Two properties that agree wherever an invariant holds hold throughout the
same runs. -/
theorem throughout_congr
    {step : σ → α → Option σ}
    {first second side invariant : σ → Prop}
    {condition : α → Prop}
    (preserved : ∀ state action next,
      invariant state → condition action → step state action = some next →
        invariant next)
    (agree : ∀ state, invariant state → side state →
      (first state ↔ second state))
    {state : σ}
    {actions : List α}
    (start : invariant state)
    (members : ∀ action ∈ actions, condition action)
    (sides : Throughout step side state actions) :
    Throughout step first state actions ↔
      Throughout step second state actions := by
  induction actions generalizing state with
  | nil => exact agree state start sides
  | cons action rest inductionHypothesis =>
      apply and_congr
      · exact agree state start sides.1
      · apply forall_congr'
        intro next
        apply imp_congr_right
        intro stepped
        exact inductionHypothesis
          (preserved state action next start (members action List.mem_cons_self)
            stepped)
          (fun other member => members other (List.mem_cons_of_mem action member))
          (sides.2 next stepped)

/-- The progress rule: as long as some action of one party keeps the invariant
and lowers the measure until the goal is reached, that party alone reaches the
goal, in at most as many actions as the measure says. -/
theorem exists_run_of_decreasing
    {step : σ → α → Option σ}
    {invariant goal : σ → Prop}
    {own : α → Prop}
    (measure : σ → Nat)
    (progress : ∀ state, invariant state → ¬ goal state →
      ∃ action next, own action ∧ step state action = some next ∧
        invariant next ∧ measure next < measure state)
    {state : σ}
    (start : invariant state) :
    ∃ actions final, (∀ action ∈ actions, own action) ∧
      actions.length ≤ measure state ∧
      run step state actions = some final ∧ goal final := by
  induction bound : measure state using Nat.strongRecOn
    generalizing state with
  | ind bound inductionHypothesis =>
      by_cases reached : goal state
      · exact ⟨[], state, by simp, Nat.zero_le _, rfl, reached⟩
      · obtain ⟨action, next, owned, stepped, nextStart, lower⟩ :=
          progress state start reached
        obtain ⟨rest, final, restOwned, short, restRan, finalReached⟩ :=
          inductionHypothesis (measure next) (by omega) nextStart rfl
        refine ⟨action :: rest, final, ?_, ?_, ?_, finalReached⟩
        · intro other member
          rcases List.mem_cons.1 member with rfl | member
          · exact owned
          · exact restOwned other member
        · rw [List.length_cons]
          omega
        · rw [run_cons_eq_some_iff]
          exact ⟨next, stepped, restRan⟩

/-- A prefix of a run meets the same condition. -/
theorem RunMeets.of_append_left
    {step : σ → α → Option σ}
    {allowed : σ → α → Prop}
    {state : σ}
    {first second : List α}
    (meets : RunMeets step allowed state (first ++ second)) :
    RunMeets step allowed state first := by
  induction first generalizing state with
  | nil => trivial
  | cons action rest inductionHypothesis =>
      exact ⟨meets.1, fun next stepped =>
        inductionHypothesis (meets.2 next stepped)⟩

/-- The part of a run after a prefix meets the same condition. -/
theorem RunMeets.of_append
    {step : σ → α → Option σ}
    {allowed : σ → α → Prop}
    {state middle : σ}
    {first second : List α}
    (meets : RunMeets step allowed state (first ++ second))
    (ran : run step state first = some middle) :
    RunMeets step allowed middle second := by
  induction first generalizing state with
  | nil =>
      rw [run_nil, Option.some.injEq] at ran
      exact ran ▸ meets
  | cons action rest inductionHypothesis =>
      obtain ⟨next, stepped, restRan⟩ :=
        (run_cons_eq_some_iff step state middle action rest).1 ran
      exact inductionHypothesis (meets.2 next stepped) restRan

/-- Every action that needs something done comes after one that does it; the
flag says that it has been done before. -/
def Follows (does needs : α → Bool) : Bool → List α → Prop
  | _, [] => True
  | done, action :: rest =>
      (needs action = true → done = true) ∧
        Follows does needs (done || does action) rest

instance Follows.decidable (does needs : α → Bool) :
    ∀ done actions, Decidable (Follows does needs done actions)
  | _, [] => .isTrue trivial
  | done, action :: rest =>
      have := Follows.decidable does needs (done || does action) rest
      inferInstanceAs (Decidable (_ ∧ _))

/-- The rule for things that have to be done first: if a step stays clean
exactly when it needs nothing that is still to be done, then a run stays clean
exactly when everything is done before it is needed. -/
theorem run_clean_iff
    {step : σ → α → Option σ}
    {invariant clean : σ → Prop}
    {done : σ → Bool}
    {does needs : α → Bool}
    (preserved : ∀ state action next,
      invariant state → step state action = some next → invariant next)
    (marks : ∀ state action next,
      invariant state → step state action = some next →
        done next = (done state || does action))
    (exactStep : ∀ state action next,
      invariant state → step state action = some next →
        (clean next ↔ clean state ∧ (needs action = true → done state = true)))
    {state final : σ}
    {actions : List α}
    (start : invariant state)
    (ran : run step state actions = some final) :
    clean final ↔ clean state ∧ Follows does needs (done state) actions := by
  induction actions generalizing state with
  | nil =>
      rw [run_nil, Option.some.injEq] at ran
      simp [ran, Follows]
  | cons action rest inductionHypothesis =>
      obtain ⟨next, stepped, restRan⟩ :=
        (run_cons_eq_some_iff step state final action rest).1 ran
      have nextStart := preserved state action next start stepped
      rw [inductionHypothesis nextStart restRan,
        exactStep state action next start stepped,
        marks state action next start stepped, Follows, and_assoc]

end Machine
end Foundation
