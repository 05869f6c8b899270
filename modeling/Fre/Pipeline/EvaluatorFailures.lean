import Fre.Pipeline.RunEvent

/-!
# Evaluators that fail

The whole of `Pipeline::Impl::run_event`, with the emission and the in-flight
counter.  An evaluator that returns an error is replaced by the failure mode of
its stage.  One that throws is not caught anywhere, so the exception leaves the
coroutine, which ends without a decision and without `on_event_complete`.  On a
worker thread of the inference stage an exception ends the program, also when
the worker was detached; one that was detached and does not throw writes to
variables that are gone, with any consequence.
-/

namespace Fre
namespace Pipeline

open Foundation Policy Stage

/-- The part of a run in which a worker thread breaks it: up to the call of
`EmitStage::process`, or from there to `on_event_complete`. -/
inductive Moment
  | beforeEmission
  | duringEmission
  deriving DecidableEq, Repr

/-- What a run reads from outside: the clocks and the scheduler, the flag of its
synchronous caller, and the calls of the emission targets.  `detachedEnd` tells
when the worker at a position ends, if it was detached and ends before the run
does, `overwrites` whether the write of its result breaks the run, and
`foreignBreak` when a worker that another run has detached breaks this one, if
one does. -/
structure EventInputs extends RunInputs where
  cancelled : Bool := false
  emission : List TargetOutcome := []
  detachedEnd : Nat → Option Moment := fun _ => none
  overwrites : Nat → Bool := fun _ => false
  foreignBreak : Option Moment := none

/-- What `run_event` leaves behind: the decisions handed to
`EmitStage::process`, the calls of `on_event_complete`, and `in_flight_`. -/
structure EventRun where
  emitted : List Decision := []
  completions : Nat := 0
  inFlight : Int64
  deriving DecidableEq

namespace EventRun

/-- `Pipeline::Impl::on_event_complete`. -/
def onEventComplete (run : EventRun) : EventRun :=
  { run with
    completions := run.completions + 1
    inFlight := run.inFlight - 1 }

/-- The call of `EmitStage::process` and what follows it, unless a worker breaks
the run. -/
def emit (config : EmitStageConfig) (calls : List TargetOutcome)
    (broken : Bool) (decision : Decision) (run : EventRun) : EventRun :=
  let run := { run with emitted := run.emitted ++ [decision] }
  match ({} : Emission).afterCalls config calls with
  | none => run
  | some _ => if broken then run else run.onEventComplete

end EventRun

/-- The event as the stages see it. -/
def numbered (event : Event) (inputs : RunInputs) : Event :=
  { event with id := inputs.eventId }

/-- A worker breaks the run: one that this run has detached ends with an
exception, or with a write that does harm, or one of another run does. -/
def EventInputs.brokenAt (inputs : EventInputs) (config : PipelineConfig)
    (event : Event) (moment : Moment) : Bool :=
  inputs.foreignBreak == some moment ||
    config.inferenceConfig.any fun inference =>
      inference.evaluators.zipIdx.any fun (evaluator, index) =>
        inputs.late index && inputs.detachedEnd index == some moment &&
          (evaluator event == .threw || inputs.overwrites index)

/-- `Pipeline::Impl::run_event`, for `submit` or for `submit_sync`.  A coroutine
that an exception leaves ends there, and of a run that a worker breaks nothing
more is known. -/
def runEvent (sort : ActiveDecisionSort) (config : PipelineConfig)
    (sync : Bool) (event : Event) (inputs : EventInputs) (run : EventRun) :
    EventRun :=
  match runStages sort config sync event inputs.toRunInputs with
  | .validationFailed => run.onEventComplete
  | .threw => run
  | .decided decision =>
      let event := numbered event inputs.toRunInputs
      if inputs.brokenAt config event .beforeEmission then run
      else if sync && inputs.cancelled then run.onEventComplete
      else
        run.emit config.emitConfig.toEmitStageConfig inputs.emission
          (inputs.brokenAt config event .duringEmission) decision

/-- The counter is raised by the submission and the coroutine runs. -/
def submitted (sort : ActiveDecisionSort) (config : PipelineConfig)
    (sync : Bool) (event : Event) (inputs : EventInputs) (inFlight : Int64) :
    EventRun :=
  runEvent sort config sync event inputs { inFlight := inFlight + 1 }

/-! ### When the stages come to a decision -/

theorem evalOutputs_isSome_iff
    (config : PipelineConfig)
    (event : Event)
    (inputs : RunInputs) :
    (evalOutputs config event inputs).isSome ↔
      ∀ eval, config.evalConfig = some eval →
        EvalStage.NoneThrows eval.evaluators event := by
  unfold evalOutputs
  cases config.evalConfig with
  | none => simp
  | some eval =>
      rw [Option.isSome_map, EvalStage.process_isSome_iff]
      simp

theorem inferenceOutputs_isSome_iff
    (config : PipelineConfig)
    (event : Event)
    (inputs : RunInputs) :
    (inferenceOutputs config event inputs).isSome ↔
      ∀ inference, config.inferenceConfig = some inference →
        InferenceStage.NoneThrows inference.evaluators event inputs.late := by
  unfold inferenceOutputs
  cases config.inferenceConfig with
  | none => simp
  | some inference =>
      rw [Option.isSome_map, InferenceStage.process_isSome_iff]
      simp

/-- The policy stage is reached exactly when both stages before it end. -/
theorem policyContext_isSome_iff
    (config : PipelineConfig)
    (event : Event)
    (inputs : RunInputs) :
    (policyContext config event inputs).isSome ↔
      (evalOutputs config event inputs).isSome ∧
        (inferenceOutputs config event inputs).isSome := by
  unfold policyContext earlierOutputs
  rw [Option.isSome_map]
  cases evalOutputs config event inputs with
  | none => simp
  | some evaluated =>
      rw [Option.bind_some, Option.isSome_map]
      simp

theorem ingestOutput_validationFailed
    (config : PipelineConfig)
    (event : Event)
    (inputs : RunInputs) :
    ((ingestOutput config event inputs).degradedReason ==
      .ingestValidationFailed) = !event.isValid := by
  unfold ingestOutput IngestStage.process
  cases event.isValid with
  | false => rfl
  | true =>
      simp only [Bool.not_true, Bool.false_eq_true, if_false]
      split <;> rfl

@[simp] theorem assemble_stageOutputs
    (sort : ActiveDecisionSort)
    (config : PipelineConfig)
    (inputs : RunInputs)
    (decision : Decision)
    (outputs : List StageOutput) :
    (assemble sort config inputs decision outputs).stageOutputs = outputs := by
  unfold assemble Decision.computeActiveDecisions
  split
  · rfl
  · split <;> rfl

/-- The stages come to a decision exactly when no evaluator throws and a
synchronous event is valid. -/
theorem runStages_decided_iff
    (sort : ActiveDecisionSort)
    (config : PipelineConfig)
    (sync : Bool)
    (event : Event)
    (inputs : RunInputs) :
    (∃ decision, runStages sort config sync event inputs = .decided decision) ↔
      (sync = true → (numbered event inputs).isValid = true) ∧
        (policyContext config (numbered event inputs) inputs).isSome := by
  unfold runStages numbered
  dsimp only
  rw [ingestOutput_validationFailed]
  generalize ({ event with id := inputs.eventId } : Event) = stamped
  cases policyContext config stamped inputs with
  | none => cases sync <;> cases stamped.isValid <;> simp
  | some context => cases sync <;> cases stamped.isValid <;> simp

/-! ### What a decision records of the failures -/

/-- The evaluator returns an error or throws. -/
def Fails (evaluator : EvaluatorFn) (event : Event) : Prop :=
  ∀ result, evaluator event ≠ .returned result

/-- Where the evaluation stage is configured, its output has the result of the
failure mode at the position of every evaluator that fails. -/
def FailureModeApplied (config : PipelineConfig) (event : Event)
    (decision : Decision) : Prop :=
  ∀ eval, config.evalConfig = some eval →
    ∃ output, decision.stageOutput "eval" = some output ∧
      ∀ index evaluator, eval.evaluators[index]? = some evaluator →
        Fails evaluator event →
        output.evaluatorResults[index]? =
          some (eval.failureMode.result (EvalStage.evalId index))

/-- An evaluator that fails without an exception is recorded under the failure
mode. -/
theorem recorded_of_fails
    {eval : EvalStageConfig}
    {event : Event}
    {evaluator : EvaluatorFn}
    (index : Nat)
    (fails : Fails evaluator event)
    (ends : evaluator event ≠ .threw) :
    EvalStage.recorded eval event index evaluator =
      some (eval.failureMode.result (EvalStage.evalId index)) := by
  unfold EvalStage.recorded
  split
  next result returned => exact absurd returned (fails result)
  next => rfl
  next threw => exact absurd threw ends

/-- The output of a stage that ended has the failure mode at every failing
position. -/
theorem evalProcess_failureMode
    {eval : EvalStageConfig}
    {event : Event}
    {elapsedUs : UInt64}
    {output : StageOutput}
    (processed : EvalStage.process eval event elapsedUs = some output)
    (index : Nat)
    (evaluator : EvaluatorFn)
    (found : eval.evaluators[index]? = some evaluator)
    (fails : Fails evaluator event) :
    output.evaluatorResults[index]? =
      some (eval.failureMode.result (EvalStage.evalId index)) := by
  obtain ⟨-, -, positions⟩ := EvalStage.process_results processed
  have noneThrows : EvalStage.NoneThrows eval.evaluators event := by
    rw [← EvalStage.process_isSome_iff eval event elapsedUs, processed]
    rfl
  rw [positions.getElem?_eq found]
  exact recorded_of_fails index fails
    (noneThrows evaluator (List.mem_of_getElem? found))

/-- A decision of the stages has the failure mode applied. -/
theorem failureModeApplied_of_decided
    {sort : ActiveDecisionSort}
    {config : PipelineConfig}
    {sync : Bool}
    {event : Event}
    {inputs : RunInputs}
    {decision : Decision}
    (decided : runStages sort config sync event inputs = .decided decision) :
    FailureModeApplied config (numbered event inputs) decision := by
  intro eval configured
  obtain ⟨context, reached, rfl⟩ := exists_of_runStages_decided decided
  obtain ⟨evaluated, inferred, evalDone, -, rfl⟩ :=
    policyContext_eq_some_iff.mp reached
  simp only [evalOutputs, configured] at evalDone
  obtain ⟨output, processed, rfl⟩ := Option.map_eq_some_iff.mp evalDone
  have named := (EvalStage.process_results processed).1
  refine ⟨output, ?_, evalProcess_failureMode processed⟩
  rw [Decision.stageOutput, assemble_stageOutputs]
  simp [ingestOutput, named]

/-! ### Exactly one decision -/

/-- What a submitted event leaves behind: one decision with the failure mode
applied, one completion, and the counter as it was before the submission. -/
structure HandledOnce (config : PipelineConfig) (event : Event)
    (inFlight : Int64) (run : EventRun) : Prop where
  emitted : ∃ decision, run.emitted = [decision] ∧
    FailureModeApplied config event decision
  completed : run.completions = 1
  restored : run.inFlight = inFlight

/-- Nothing leaves `run_event` before its end: no evaluator, inference worker
or emission target throws, no worker that was detached and ends meanwhile does so
with an exception or with a write that does harm, and a synchronous event is
valid and not given up by its caller. -/
structure ReachesEnd (config : PipelineConfig) (sync : Bool) (event : Event)
    (inputs : EventInputs) : Prop where
  evaluators : ∀ eval, config.evalConfig = some eval →
    EvalStage.NoneThrows eval.evaluators event
  workers : ∀ inference, config.inferenceConfig = some inference →
    InferenceStage.NoneThrows inference.evaluators event inputs.late
  detached : ∀ inference, config.inferenceConfig = some inference →
    ∀ index evaluator, inference.evaluators[index]? = some evaluator →
      inputs.late index = true → inputs.detachedEnd index ≠ none →
        evaluator event ≠ .threw ∧ inputs.overwrites index = false
  undisturbed : inputs.foreignBreak = none
  valid : sync = true → event.isValid = true
  awaited : sync = true → inputs.cancelled = false
  targets : (({} : Emission).afterCalls config.emitConfig.toEmitStageConfig
    inputs.emission).isSome

/-- A run that emits nothing does not handle its event. -/
theorem not_handledOnce_of_emitted_nil
    {config : PipelineConfig}
    {event : Event}
    {inFlight : Int64}
    {run : EventRun}
    (nothing : run.emitted = []) :
    ¬ HandledOnce config event inFlight run := by
  intro handled
  obtain ⟨decision, emitted, -⟩ := handled.emitted
  rw [nothing] at emitted
  exact absurd emitted (by simp)

/-- No worker breaks the run exactly when each detached one that ends during it
ends well and no other run interferes. -/
theorem not_brokenAt_iff
    (inputs : EventInputs)
    (config : PipelineConfig)
    (event : Event) :
    (∀ moment, inputs.brokenAt config event moment = false) ↔
      (∀ inference, config.inferenceConfig = some inference →
        ∀ index evaluator, inference.evaluators[index]? = some evaluator →
          inputs.late index = true → inputs.detachedEnd index ≠ none →
            evaluator event ≠ .threw ∧ inputs.overwrites index = false) ∧
        inputs.foreignBreak = none := by
  simp only [EventInputs.brokenAt, Bool.or_eq_false_iff, beq_eq_false_iff_ne,
    Option.any_eq_false, List.any_eq_false, Prod.forall,
    List.mem_zipIdx_iff_getElem?, Bool.and_eq_true, Bool.or_eq_true, beq_iff_eq,
    not_and, not_or, Bool.not_eq_true]
  constructor
  · intro unbroken
    refine ⟨?_, Option.eq_none_iff_forall_ne_some.mpr
      fun moment => (unbroken moment).1⟩
    intro inference configured index evaluator started late ends
    obtain ⟨moment, ended⟩ := Option.ne_none_iff_exists'.mp ends
    exact (unbroken moment).2 inference configured evaluator index started
      ⟨late, ended⟩
  · rintro ⟨detached, undisturbed⟩ moment
    refine ⟨by simp [undisturbed], ?_⟩
    rintro inference configured evaluator index started ⟨late, ended⟩
    exact detached inference configured index evaluator started late
      (by simp [ended])

/-- The emission of a decision handles the event exactly when every call of a
target returns and no worker breaks the run meanwhile. -/
theorem emit_handledOnce_iff
    {config : PipelineConfig}
    {event : Event}
    {decision : Decision}
    (applied : FailureModeApplied config event decision)
    (emit : EmitStageConfig)
    (calls : List TargetOutcome)
    (broken : Bool)
    (inFlight : Int64) :
    HandledOnce config event inFlight
        (({ inFlight := inFlight + 1 } : EventRun).emit emit calls broken
          decision) ↔
      (({} : Emission).afterCalls emit calls).isSome ∧ broken = false := by
  unfold EventRun.emit
  cases ({} : Emission).afterCalls emit calls with
  | none =>
      refine iff_of_false ?_ (by simp)
      intro handled
      exact absurd handled.completed (by simp)
  | some emission =>
      cases broken with
      | true =>
          refine iff_of_false ?_ (by simp)
          intro handled
          exact absurd handled.completed (by simp)
      | false =>
          refine iff_of_true ⟨⟨decision, rfl, applied⟩, rfl, ?_⟩ ⟨rfl, rfl⟩
          exact Int64.add_sub_cancel inFlight 1

/-- An event that the stages decide is handled exactly when no worker breaks the
run, its caller has not given it up, and every call of a target returns. -/
theorem handledOnce_iff_of_decided
    {sort : ActiveDecisionSort}
    {config : PipelineConfig}
    {sync : Bool}
    {event : Event}
    {inputs : EventInputs}
    {decision : Decision}
    (decided : runStages sort config sync event inputs.toRunInputs =
      .decided decision)
    (inFlight : Int64) :
    HandledOnce config (numbered event inputs.toRunInputs) inFlight
        (submitted sort config sync event inputs inFlight) ↔
      (∀ moment, inputs.brokenAt config (numbered event inputs.toRunInputs)
        moment = false) ∧
      (sync = true → inputs.cancelled = false) ∧
      (({} : Emission).afterCalls config.emitConfig.toEmitStageConfig
        inputs.emission).isSome := by
  unfold submitted runEvent
  rw [decided]
  dsimp only
  split
  next brokenEarly =>
    refine iff_of_false (not_handledOnce_of_emitted_nil rfl) ?_
    rintro ⟨intact, -, -⟩
    exact absurd brokenEarly (by simp [intact])
  next intactBefore =>
    split
    next givenUp =>
      rw [Bool.and_eq_true] at givenUp
      refine iff_of_false (not_handledOnce_of_emitted_nil rfl) ?_
      rintro ⟨-, awaited, -⟩
      exact absurd givenUp.2 (by simp [awaited givenUp.1])
    next kept =>
      rw [emit_handledOnce_iff (failureModeApplied_of_decided decided)]
      constructor
      · rintro ⟨returns, intactAfter⟩
        refine ⟨?_, fun isSync => by simpa [isSync] using kept, returns⟩
        intro moment
        cases moment with
        | beforeEmission => exact eq_false_of_ne_true intactBefore
        | duringEmission => exact intactAfter
      · rintro ⟨intact, -, returns⟩
        exact ⟨returns, intact _⟩

/-- A submitted event yields exactly one decision, with the failure mode applied
to every evaluator that fails, and exactly one completion, if and only if its
coroutine reaches its end. -/
theorem submitted_handledOnce_iff
    (sort : ActiveDecisionSort)
    (config : PipelineConfig)
    (sync : Bool)
    (event : Event)
    (inputs : EventInputs)
    (inFlight : Int64) :
    HandledOnce config (numbered event inputs.toRunInputs) inFlight
        (submitted sort config sync event inputs inFlight) ↔
      ReachesEnd config sync (numbered event inputs.toRunInputs) inputs := by
  have decidedIff :=
    runStages_decided_iff sort config sync event inputs.toRunInputs
  rw [policyContext_isSome_iff, evalOutputs_isSome_iff,
    inferenceOutputs_isSome_iff] at decidedIff
  by_cases decides : ∃ decision,
      runStages sort config sync event inputs.toRunInputs = .decided decision
  · obtain ⟨valid, evaluators, workers⟩ := decidedIff.mp decides
    obtain ⟨decision, decided⟩ := decides
    rw [handledOnce_iff_of_decided decided, not_brokenAt_iff]
    constructor
    · rintro ⟨⟨detached, undisturbed⟩, awaited, targets⟩
      exact ⟨evaluators, workers, detached, undisturbed, valid, awaited, targets⟩
    · intro reaches
      exact ⟨⟨reaches.detached, reaches.undisturbed⟩, reaches.awaited,
        reaches.targets⟩
  · refine iff_of_false (not_handledOnce_of_emitted_nil ?_) ?_
    · unfold submitted runEvent
      cases assembly : runStages sort config sync event inputs.toRunInputs with
      | validationFailed => rfl
      | threw => rfl
      | decided decision => exact absurd ⟨decision, assembly⟩ decides
    · intro reaches
      exact decides (decidedIff.mpr
        ⟨reaches.valid, reaches.evaluators, reaches.workers⟩)

/-- An evaluator that throws. -/
def throwingEvaluator : EvaluatorFn := fun _ => .threw

/-- A fail-closed evaluation stage with an evaluator that throws. -/
def throwingConfig : PipelineConfig where
  evalConfig := some
    { failureMode := .failClosed
      evaluators := [EvalStage.passingEvaluator, throwingEvaluator] }
  emitConfig := { targets := 1 }

/-- The exception of one evaluator takes the decision with it and leaves the
counter raised, although the targets would take it. -/
theorem throwing_evaluator_loses_decision :
    ∃ (sort : ActiveDecisionSort) (config : PipelineConfig) (event : Event)
      (inputs : EventInputs),
      submitted sort config false event inputs 0 =
          { emitted := [], completions := 0, inFlight := 1 } ∧
        ¬ HandledOnce config (numbered event inputs.toRunInputs) 0
          (submitted sort config false event inputs 0) := by
  have lost : submitted (SortFunction.stable _) throwingConfig false
      { tenantId := "t", entityId := "e" } { emission := [.delivered] } 0 =
        { emitted := [], completions := 0, inFlight := 1 } := by
    decide +kernel
  refine ⟨SortFunction.stable _, throwingConfig,
    { tenantId := "t", entityId := "e" }, { emission := [.delivered] },
    lost, ?_⟩
  rw [lost]
  exact not_handledOnce_of_emitted_nil rfl

end Pipeline
end Fre
