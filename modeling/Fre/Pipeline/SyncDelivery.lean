import Fre.Pipeline.SubmitSync

/-!
# Delivery before the return

A synchronous caller that waits for `done` returns after the emission.  A
caller that gives up returns a decision captured before, without waiting for
the emission.  With targets that take the decision at the first attempt, all of
them have it at the return exactly if the caller that gave up does not look at
the context while the coroutine still has a target to call.
-/

namespace Fre
namespace Pipeline
namespace SubmitSync

open Foundation Stage

/-- The targets up to an index with what they were given. -/
def deliveries (count : Nat) (decision : Decision) : List (Nat × Decision) :=
  (List.range count).map fun target => (target, decision)

theorem mem_deliveries_iff
    {count target : Nat}
    {decision other : Decision} :
    (target, other) ∈ deliveries count decision ↔
      target < count ∧ other = decision := by
  simp [deliveries, eq_comm]

/-- The coroutine has captured its decision and still has a target to call. -/
def Pending (config : Config) : CoroutinePc → Prop
  | .captured _ => 0 < config.emit.targets
  | .emitting _ emission => emission.target < config.emit.targets
  | _ => False

/-- A caller that has given up does not look at the decision while an emission
is pending. -/
def NoEarlyLook (config : Config) (state : State) : Action → Prop
  | .caller =>
      ∀ cancelledFlag, state.caller = .lookDecision cancelledFlag →
        ¬ Pending config state.coroutine
  | _ => True

instance (config : Config) : DecidablePred (Pending config)
  | .captured _ => inferInstanceAs (Decidable (0 < config.emit.targets))
  | .emitting _ emission =>
      inferInstanceAs (Decidable (emission.target < config.emit.targets))
  | .notSpawned => .isFalse id
  | .queued => .isFalse id
  | .computing => .isFalse id
  | .validationExit => .isFalse id
  | .capturing _ => .isFalse id
  | .settingDone => .isFalse id
  | .completing => .isFalse id
  | .finished => .isFalse id
  | .dead => .isFalse id

instance (config : Config) (state : State) :
    ∀ action, Decidable (NoEarlyLook config state action)
  | .caller =>
      inferInstanceAs (Decidable (∀ cancelledFlag,
        state.caller = .lookDecision cancelledFlag →
          ¬ Pending config state.coroutine))
  | .deadlinePasses => .isTrue trivial
  | .requestStop => .isTrue trivial
  | .checkState _ _ => .isTrue trivial
  | .tryAcquire _ => .isTrue trivial
  | .wake _ => .isTrue trivial
  | .finishStages _ => .isTrue trivial
  | .callTarget _ => .isTrue trivial
  | .coroutine => .isTrue trivial

/-- A returned decision has reached every target. -/
def Delivered (config : Config) (state : State) : Prop :=
  ∀ decision, state.caller = .returned (.ok decision) →
    ∀ target < config.emit.targets, (target, decision) ∈ state.delivered

/-- If the action calls a target, the target takes the decision. -/
def Action.TargetTakes : Action → Prop
  | .callTarget outcome => outcome = .delivered
  | _ => True

/-- What the position of the coroutine says about the deliveries, when every
target takes the decision at once. -/
def DeliveryFacts (config : Config) (state : State) : Prop :=
  match state.coroutine with
  | .emitting decision emission =>
      state.delivered = deliveries emission.target decision ∧
        emission.target ≤ config.emit.targets
  | .settingDone =>
      ∀ decision, state.decision = some decision →
        state.delivered = deliveries config.emit.targets decision
  | .completing =>
      ∀ decision, state.decision = some decision →
        state.delivered = deliveries config.emit.targets decision
  | .finished =>
      ∀ decision, state.decision = some decision →
        state.delivered = deliveries config.emit.targets decision
  | .dead => state.decision = none
  | _ => state.delivered = []

/-- With a captured decision, every target has it exactly if no emission is
pending. -/
theorem DeliveryFacts.of_decision
    {config : Config}
    {state : State}
    (delivery : DeliveryFacts config state)
    (agreement : Agreement state)
    {decision : Decision}
    (present : state.decision = some decision) :
    (∀ target < config.emit.targets, (target, decision) ∈ state.delivered) ↔
      ¬ Pending config state.coroutine := by
  have facts := agreement.coroutineFacts
  have untouched (nothing : state.Untouched) : False := by
    have absent := nothing.1
    rw [present] at absent
    cases absent
  have complete (all : ∀ captured, state.decision = some captured →
      state.delivered = deliveries config.emit.targets captured) :
      ∀ target < config.emit.targets, (target, decision) ∈ state.delivered := by
    intro target bound
    rw [all decision present]
    exact mem_deliveries_iff.2 ⟨bound, rfl⟩
  cases position : state.coroutine with
  | captured other =>
      rw [DeliveryFacts, position] at delivery
      dsimp only at delivery
      rw [delivery, Pending]
      constructor
      · intro all someTarget
        exact absurd (all 0 someTarget) List.not_mem_nil
      · intro noTarget target bound
        omega
  | emitting other emission =>
      rw [DeliveryFacts, position] at delivery
      rw [CoroutineFacts, position] at facts
      have same : other = decision := by
        have otherPresent := facts.1
        rw [present, Option.some.injEq] at otherPresent
        exact otherPresent.symm
      subst same
      rw [delivery.1, Pending]
      constructor
      · intro all left
        exact absurd (mem_deliveries_iff.1 (all emission.target left)).1
          (lt_irrefl _)
      · intro nothingLeft target bound
        exact mem_deliveries_iff.2 ⟨by omega, rfl⟩
  | settingDone =>
      rw [DeliveryFacts, position] at delivery
      exact ⟨fun _ => id, fun _ => complete delivery⟩
  | completing =>
      rw [DeliveryFacts, position] at delivery
      exact ⟨fun _ => id, fun _ => complete delivery⟩
  | finished =>
      rw [DeliveryFacts, position] at delivery
      exact ⟨fun _ => id, fun _ => complete delivery⟩
  | dead =>
      rw [DeliveryFacts, position] at delivery
      dsimp only at delivery
      rw [present] at delivery
      cases delivery
  | _ =>
      rw [CoroutineFacts, position] at facts
      exact (untouched facts).elim

/-- A step of the coroutine without input keeps the delivery facts. -/
theorem DeliveryFacts.coroutineStep
    {config : Config}
    {state next : State}
    (delivery : DeliveryFacts config state)
    (agreement : Agreement state)
    (stepped : coroutineStep config state = some next) :
    DeliveryFacts config next := by
  have facts := agreement.coroutineFacts
  cases position : state.coroutine with
  | queued =>
      simp only [SubmitSync.coroutineStep, position, Option.some.injEq]
        at stepped
      rw [DeliveryFacts, position] at delivery
      subst stepped
      exact delivery
  | validationExit =>
      simp only [SubmitSync.coroutineStep, position] at stepped
      rw [CoroutineFacts, position] at facts
      split at stepped
      · cases stepped
      · cases stepped
        intro decision present
        rw [facts.1] at present
        cases present
  | capturing decision =>
      simp only [SubmitSync.coroutineStep, position] at stepped
      rw [CoroutineFacts, position] at facts
      rw [DeliveryFacts, position] at delivery
      split at stepped
      · cases stepped
      · split at stepped
        · cases stepped
          intro other present
          rw [facts.1] at present
          cases present
        · cases stepped
          exact delivery
  | captured decision =>
      simp only [SubmitSync.coroutineStep, position, Option.some.injEq]
        at stepped
      rw [DeliveryFacts, position] at delivery
      subst stepped
      exact ⟨delivery, Nat.zero_le _⟩
  | emitting decision emission =>
      simp only [SubmitSync.coroutineStep, position] at stepped
      rw [CoroutineFacts, position] at facts
      rw [DeliveryFacts, position] at delivery
      split at stepped
      · next allCalled =>
          cases stepped
          intro other present
          have same : other = decision := by
            rw [facts.1, Option.some.injEq] at present
            exact present.symm
          subst same
          rw [← le_antisymm delivery.2 allCalled]
          exact delivery.1
      · cases stepped
  | settingDone =>
      simp only [SubmitSync.coroutineStep, position] at stepped
      rw [DeliveryFacts, position] at delivery
      split at stepped
      · cases stepped
      · cases stepped
        exact delivery
  | completing =>
      simp only [SubmitSync.coroutineStep, position, Option.some.injEq]
        at stepped
      rw [DeliveryFacts, position] at delivery
      subst stepped
      exact delivery
  | notSpawned => simp [SubmitSync.coroutineStep, position] at stepped
  | computing => simp [SubmitSync.coroutineStep, position] at stepped
  | finished => simp [SubmitSync.coroutineStep, position] at stepped
  | dead => simp [SubmitSync.coroutineStep, position] at stepped

/-- A move of the caller keeps the delivery facts. -/
theorem DeliveryFacts.callerMoves
    {config : Config}
    {state next : State}
    (delivery : DeliveryFacts config state)
    (agreement : Agreement state)
    (moves : CallerMoves state next) :
    DeliveryFacts config next := by
  obtain ⟨-, position, coroutine, cancelled, rfl, same | ⟨spawning, rfl⟩⟩ :=
    moves
  · subst same
    exact delivery
  · have notSpawned := agreement.callerFacts
    simp only [CallerFacts, spawning] at notSpawned
    rw [DeliveryFacts, notSpawned] at delivery
    exact delivery

/-- Every step in which a called target takes the decision keeps the delivery
facts. -/
theorem DeliveryFacts.step
    {config : Config}
    {state next : State}
    {action : Action}
    (delivery : DeliveryFacts config state)
    (agreement : Agreement state)
    (takes : action.TargetTakes)
    (stepped : step config state action = some next) :
    DeliveryFacts config next := by
  cases action with
  | deadlinePasses =>
      cases stepped
      exact delivery
  | requestStop =>
      simp only [SubmitSync.step] at stepped
      split at stepped
      · cases stepped
        exact delivery
      · cases stepped
  | checkState running everStarted =>
      exact delivery.callerMoves agreement (callerMoves_of_step stepped trivial)
  | tryAcquire granted =>
      exact delivery.callerMoves agreement (callerMoves_of_step stepped trivial)
  | wake timedOut =>
      exact delivery.callerMoves agreement (callerMoves_of_step stepped trivial)
  | caller =>
      exact delivery.callerMoves agreement (callerMoves_of_step stepped trivial)
  | finishStages assembly =>
      simp only [SubmitSync.step] at stepped
      split at stepped
      · next position =>
          rw [Option.some.injEq] at stepped
          subst stepped
          have facts := agreement.coroutineFacts
          rw [CoroutineFacts, position] at facts
          rw [DeliveryFacts, position] at delivery
          cases assembly with
          | validationFailed => exact delivery
          | decided decision => exact delivery
          | threw => exact facts.1
      · cases stepped
  | callTarget outcome =>
      have delivered : outcome = .delivered := takes
      subst delivered
      simp only [SubmitSync.step] at stepped
      split at stepped
      · next decision emission position =>
          rw [DeliveryFacts, position] at delivery
          split at stepped
          · next left =>
              cases stepped
              refine ⟨?_, left⟩
              simp only [if_true, delivery.1]
              simp [deliveries, List.range_succ]
          · cases stepped
      · cases stepped
  | coroutine => exact delivery.coroutineStep agreement stepped

/-! ## The moment of the return -/

/-- What was delivered stays delivered. -/
theorem delivered_subset
    {config : Config}
    {state next : State}
    {action : Action}
    (stepped : step config state action = some next) :
    state.delivered ⊆ next.delivered := by
  rcases step_cases stepped with
    ⟨-, -, position, coroutine, cancelled, rfl, -⟩ | ⟨-, grown, -⟩
  · exact List.Subset.refl _
  · exact grown

/-- A caller that has just returned a decision either found `done` or had
given up. -/
theorem callerStep_returned_ok
    {config : Config}
    {state next : State}
    {decision : Decision}
    (stepped : callerStep config state = some next)
    (returned : next.caller = .returned (.ok decision)) :
    state.decision = some decision ∧
      (state.caller = .finished ∨
        ∃ cancelledFlag, state.caller = .lookDecision cancelledFlag) := by
  have branch {condition : Prop} [Decidable condition]
      {first second : CallerPc}
      (chosen : (if condition then first else second) =
        .returned (.ok decision)) :
      first = .returned (.ok decision) ∨ second = .returned (.ok decision) := by
    split at chosen
    · exact .inl chosen
    · exact .inr chosen
  unfold callerStep at stepped
  split at stepped
  · cases stepped
    rcases branch returned with impossible | impossible <;> cases impossible
  · cases stepped
    cases returned
  · cases stepped
    cases returned
  · cases stepped
    rcases branch returned with impossible | impossible <;> cases impossible
  · cases stepped
    rcases branch returned with impossible | impossible <;> cases impossible
  · cases stepped
    rcases branch returned with impossible | impossible <;> cases impossible
  · cases stepped
    rcases branch returned with impossible | impossible <;> cases impossible
  · cases stepped
    rcases branch returned with impossible | impossible <;> cases impossible
  · next finished =>
      split at stepped
      · cases stepped
        cases returned
      · next captured noError present =>
          cases stepped
          cases returned
          exact ⟨present, .inl finished⟩
      · cases stepped
        cases returned
  · cases stepped
    cases returned
  · next cancelledFlag looking =>
      split at stepped
      · next captured present =>
          cases stepped
          cases returned
          exact ⟨present, .inr ⟨cancelledFlag, looking⟩⟩
      · cases stepped
        cases returned
  · cases stepped
    rcases branch returned with impossible | impossible <;> cases impossible
  · cases stepped

/-- Only a step of the caller makes it return a decision. -/
theorem step_returned_ok
    {config : Config}
    {state next : State}
    {action : Action}
    {decision : Decision}
    (stepped : step config state action = some next)
    (returned : next.caller = .returned (.ok decision)) :
    state.caller = .returned (.ok decision) ∨ action = .caller := by
  rcases step_cases stepped with ⟨ofCaller, -⟩ | ⟨sameCaller, -⟩
  · cases action with
    | checkState running everStarted =>
        simp only [step] at stepped
        split at stepped
        · cases stepped
          dsimp only at returned
          split at returned
          · cases returned
          · split at returned
            · cases returned
            · cases returned
        · cases stepped
    | tryAcquire granted =>
        simp only [step] at stepped
        split at stepped
        · cases stepped
          dsimp only at returned
          split at returned
          · cases returned
          · cases returned
        · cases stepped
    | wake timedOut =>
        simp only [step, wakeStep] at stepped
        split at stepped
        · split at stepped
          · cases stepped
          · split at stepped
            · cases stepped
              cases returned
            · split at stepped
              · cases stepped
                cases returned
              · cases stepped
                exact .inl returned
        · split at stepped
          · cases stepped
            cases returned
          · cases stepped
            exact .inl returned
        · cases stepped
    | caller => exact .inr rfl
    | _ => exact absurd ofCaller id
  · rw [sameCaller] at returned
    exact .inl returned

/-- With `done` set the coroutine has no target left to call. -/
theorem not_pending_of_done
    {config : Config}
    {state : State}
    (agreement : Agreement state)
    (done : state.done = true) :
    ¬ Pending config state.coroutine := by
  have facts := agreement.coroutineFacts
  intro pending
  cases position : state.coroutine with
  | captured decision =>
      rw [CoroutineFacts, position] at facts
      have notDone := facts.2.2.1
      rw [done] at notDone
      cases notDone
  | emitting decision emission =>
      rw [CoroutineFacts, position] at facts
      have notDone := facts.2.2.1
      rw [done] at notDone
      cases notDone
  | _ =>
      rw [position] at pending
      exact pending

/-- While an emission is pending the decision is captured. -/
theorem decision_of_pending
    {config : Config}
    {state : State}
    (agreement : Agreement state)
    (pending : Pending config state.coroutine) :
    ∃ decision, state.decision = some decision := by
  have facts := agreement.coroutineFacts
  cases position : state.coroutine with
  | captured decision =>
      rw [CoroutineFacts, position] at facts
      exact ⟨decision, facts.1⟩
  | emitting decision emission =>
      rw [CoroutineFacts, position] at facts
      exact ⟨decision, facts.1⟩
  | _ =>
      rw [position] at pending
      exact absurd pending id

/-- A step from a state where the returned decision, if any, is delivered leads
to such a state exactly if the caller does not look too early. -/
theorem delivered_step_iff
    {config : Config}
    {state next : State}
    {action : Action}
    (agreement : Agreement state)
    (delivery : DeliveryFacts config state)
    (delivered : Delivered config state)
    (stepped : step config state action = some next) :
    Delivered config next ↔ NoEarlyLook config state action := by
  constructor
  · intro nextDelivered
    cases action with
    | caller =>
        intro cancelledFlag looking pending
        obtain ⟨decision, present⟩ := decision_of_pending agreement pending
        have returned : next = { state with
            caller := .returned (.ok decision) } := by
          simp only [step, callerStep, looking] at stepped
          split at stepped
          · next captured capturedPresent =>
              rw [present, Option.some.injEq] at capturedPresent
              rw [Option.some.injEq] at stepped
              rw [← stepped, capturedPresent]
          · next absent =>
              rw [present] at absent
              cases absent
        subst returned
        exact (delivery.of_decision agreement present).1
          (nextDelivered decision rfl) pending
    | _ => trivial
  · intro noEarlyLook decision returned target bound
    apply delivered_subset stepped
    rcases step_returned_ok stepped returned with before | rfl
    · exact delivered decision before target bound
    · obtain ⟨present, finished | ⟨cancelledFlag, looking⟩⟩ :=
        callerStep_returned_ok stepped returned
      · have done := agreement.callerFacts
        simp only [CallerFacts, finished] at done
        exact (delivery.of_decision agreement present).2
          (not_pending_of_done agreement done) target bound
      · exact (delivery.of_decision agreement present).2
          (noEarlyLook cancelledFlag looking) target bound

theorem throughout_delivered_iff
    {config : Config}
    {state final : State}
    (agreement : Agreement state)
    (delivery : DeliveryFacts config state)
    (delivered : Delivered config state)
    {actions : List Action}
    (takes : ∀ action ∈ actions, action.TargetTakes)
    (ran : Machine.run (step config) state actions = some final) :
    Machine.Throughout (step config) (Delivered config) state actions ↔
      Machine.RunMeets (step config) (NoEarlyLook config) state actions := by
  induction actions generalizing state with
  | nil => exact ⟨fun _ => trivial, fun _ => delivered⟩
  | cons action rest inductionHypothesis =>
      obtain ⟨next, stepped, restRan⟩ :=
        (Machine.run_cons_eq_some_iff _ _ _ _ _).1 ran
      have here := delivered_step_iff agreement delivery delivered stepped
      have nextAgreement := agreement_step state action next agreement stepped
      have nextDelivery := delivery.step agreement
        (takes action List.mem_cons_self) stepped
      have restTakes : ∀ other ∈ rest, other.TargetTakes :=
        fun other member => takes other (List.mem_cons_of_mem action member)
      simp only [Machine.Throughout, Machine.RunMeets, stepped,
        Option.some.injEq, forall_eq']
      constructor
      · rintro ⟨-, later⟩
        have nextDelivered := later.holds_at_start
        exact ⟨here.1 nextDelivered,
          (inductionHypothesis nextAgreement nextDelivery nextDelivered
            restTakes restRan).1 later⟩
      · rintro ⟨noEarlyLook, later⟩
        have nextDelivered := here.2 noEarlyLook
        exact ⟨delivered,
          (inductionHypothesis nextAgreement nextDelivery nextDelivered
            restTakes restRan).2 later⟩

/-- In every run with targets that take the decision at the first attempt: in
every state the returned decision, if there is one, has reached every target,
exactly if no caller that has given up looks at the context while the
coroutine has captured its decision and still has a target to call. -/
theorem delivered_before_return_iff
    (config : Config)
    (actions : List Action)
    (takes : ∀ action ∈ actions, action.TargetTakes)
    (final : State)
    (ran : Machine.run (step config) {} actions = some final) :
    Machine.Throughout (step config) (Delivered config) {} actions ↔
      Machine.RunMeets (step config) (NoEarlyLook config) {} actions :=
  throughout_delivered_iff agreement_initial rfl
    (fun _ returned => nomatch returned) takes ran

/-- The caller waits for the coroutine, which delivers to two targets. -/
def waitForEmission : List Action :=
  [.caller, .checkState true true, .tryAcquire true, .caller, .caller,
    .caller, .caller, .coroutine, .finishStages (.decided {}), .coroutine,
    .coroutine, .callTarget .delivered, .callTarget .delivered, .coroutine,
    .coroutine, .wake false, .caller]

/-- The run `waitForEmission` meets the condition, so the decision is returned
after its delivery. -/
theorem delivered_before_return_waitForEmission :
    Machine.Throughout (step ⟨false, { targets := 2 }⟩)
      (Delivered ⟨false, { targets := 2 }⟩) {} waitForEmission := by
  refine (delivered_before_return_iff ⟨false, { targets := 2 }⟩ waitForEmission
    ?_ _ (Option.some_get (by decide)).symm).2 (by decide)
  simp [waitForEmission, Action.TargetTakes]

/-- The deadline passes after the capture; the caller returns the decision
before the only target is called. -/
def returnBeforeEmission : List Action :=
  [.caller, .checkState true true, .tryAcquire true, .caller, .caller,
    .caller, .caller, .coroutine, .finishStages (.decided {}), .coroutine,
    .deadlinePasses, .wake true, .caller, .caller]

/-- The decision is returned and no target has it. -/
theorem returned_before_delivery :
    ∃ final,
      Machine.run (step ⟨false, { targets := 1 }⟩) {} returnBeforeEmission =
          some final ∧
        final.caller = .returned (.ok {}) ∧
        final.delivered = [] ∧
        ¬ Delivered ⟨false, { targets := 1 }⟩ final := by
  refine ⟨_, (Option.some_get (by decide)).symm, by decide, by decide, ?_⟩
  intro delivered
  exact absurd (delivered {} (by decide) 0 (by decide)) (by decide)

end SubmitSync
end Pipeline
end Fre
