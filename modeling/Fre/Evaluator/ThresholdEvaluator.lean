import Fre.Core.Event
import Fre.State.WindowStore

/-!
# The threshold evaluator

`ThresholdEvaluator::evaluate` counts the event in its window by an optimistic
read and swap, at most ten times over, and flags the event when the count it
wrote exceeds the threshold.  The two store calls of an attempt are separate
steps, so that the calls of several threads can be interleaved; `evaluate` is
the same code run by one thread alone.
-/

namespace Fre
namespace Evaluator

open Foundation State

/-- `ThresholdEvaluatorConfig`, with the duration in milliseconds. -/
structure ThresholdEvaluatorConfig where
  windowDuration : Int64 := 60000
  aggregation : AggregationFn := .count
  groupBy : GroupBy := .entityId
  threshold : Double := .finite 100
  groupByTag : String := ""
  windowName : String := "default"
  deriving DecidableEq

/-- What the language leaves open in the text of a number: how `std::format`
prints a double, and the result of a cast to `int` that does not fit. -/
structure NumberText where
  double : Double → String
  castOutOfRange : Double → Int

namespace NumberText

/-- `static_cast<int>`: truncation towards zero. -/
def staticCastInt (text : NumberText) (value : Double) : Int :=
  match value with
  | .finite rational =>
      let truncated := rational.num.tdiv rational.den
      if -2147483648 ≤ truncated ∧ truncated < 2147483648 then truncated
      else text.castOutOfRange value
  | _ => text.castOutOfRange value

end NumberText

namespace ThresholdEvaluator

/-- `ThresholdEvaluator::evaluator_id`. -/
def evaluatorId : String := "threshold_evaluator"

/-- `entity_key`. -/
def entityKey (config : ThresholdEvaluatorConfig) (event : Event) : String :=
  match config.groupBy with
  | .entityId => event.entityId
  | .tenantId => event.tenantId
  | .tag => event.tag config.groupByTag

/-- `current_epoch`. -/
def currentEpoch (config : ThresholdEvaluatorConfig) (event : Event) : UInt64 :=
  let tsMs := (event.timestamp / 1000000).toUInt64
  let windowMs := config.windowDuration.toUInt64
  if windowMs = 0 then 0 else tsMs / windowMs

/-- The window key of an event. -/
def windowKey (config : ThresholdEvaluatorConfig) (event : Event) :
    WindowKey where
  tenantId := event.tenantId
  entityId := entityKey config event
  windowName := config.windowName
  epoch := currentEpoch config event

/-- `aggregate_value`: every aggregation counts. -/
def aggregateValue (config : ThresholdEvaluatorConfig) (current : Double) :
    Double :=
  match config.aggregation with
  | .count => current.add .binary64 (.finite 1)
  | .sum => current.add .binary64 (.finite 1)
  | .distinctCount => current.add .binary64 (.finite 1)

/-- The value an attempt tries to write over the one it has read. -/
def updated (config : ThresholdEvaluatorConfig) (current : WindowValue) :
    WindowValue where
  aggregate := aggregateValue config current.aggregate
  version := current.version + 1

/-- The error returned when the store fails. -/
def storeFailure (error : StoreError) : EvaluatorError where
  code := .internalError
  evaluatorId := evaluatorId
  detail := error.detail

/-- The result after ten lost swaps. -/
def contention : EvaluatorResult where
  evaluatorId := evaluatorId
  verdict := .pass
  reasonCode := some "cas_contention"

/-- The result after a swap that wrote `written`. -/
def counted
    (text : NumberText)
    (config : ThresholdEvaluatorConfig)
    (written : WindowValue) : EvaluatorResult :=
  if config.threshold.lt written.aggregate then
    { evaluatorId := evaluatorId
      verdict := .flag
      reasonCode := some "threshold_exceeded"
      metadata := some ("\x7b\"window_count\":" ++
        toString (text.staticCastInt written.aggregate) ++ ",\"threshold\":" ++
        text.double config.threshold ++ ",\"window_name\":\"" ++
        config.windowName ++ "\"\x7d") }
  else { evaluatorId := evaluatorId, verdict := .pass }

theorem counted_verdict_eq_flag_iff
    (text : NumberText)
    (config : ThresholdEvaluatorConfig)
    (written : WindowValue) :
    (counted text config written).verdict = .flag ↔
      config.threshold.lt written.aggregate = true := by
  unfold counted
  split
  · next exceeded => simp [exceeded]
  · next within => simp [within]

theorem counted_ne_contention
    (text : NumberText)
    (config : ThresholdEvaluatorConfig)
    (written : WindowValue) :
    (counted text config written).reasonCode ≠ contention.reasonCode := by
  unfold counted
  split
  · simp [contention]
  · simp [contention]

/-- Where a call of `evaluate` stands. -/
inductive Progress
  | reading (attempts : Nat)
  | swapping (attempts : Nat) (current : WindowValue)
  | returned (outcome : Except EvaluatorError EvaluatorResult)
  deriving DecidableEq

section Steps

variable {σ : Type} [StateStore σ]
  (text : NumberText) (config : ThresholdEvaluatorConfig) (event : Event)

/-- The next store call of `evaluate`. -/
def advance (progress : Progress) (store : σ) : Progress × σ :=
  match progress with
  | .reading attempts =>
      match StateStore.get store (windowKey config event) with
      | .error error => (.returned (.error (storeFailure error)), store)
      | .ok current => (.swapping attempts current, store)
  | .swapping attempts current =>
      match StateStore.compareAndSwap store (windowKey config event) current
          (updated config current) with
      | (.error error, after) =>
          (.returned (.error (storeFailure error)), after)
      | (.ok true, after) =>
          (.returned (.ok (counted text config (updated config current))),
            after)
      | (.ok false, after) =>
          if attempts + 1 < 10 then (.reading (attempts + 1), after)
          else (.returned (.ok contention), after)
  | .returned outcome => (.returned outcome, store)

/-- The loop of `evaluate` with this many attempts left. -/
def evaluateLoop : Nat → σ → Except EvaluatorError EvaluatorResult × σ
  | 0, store => (.ok contention, store)
  | remaining + 1, store =>
      match StateStore.get store (windowKey config event) with
      | .error error => (.error (storeFailure error), store)
      | .ok current =>
          match StateStore.compareAndSwap store (windowKey config event)
              current (updated config current) with
          | (.error error, after) => (.error (storeFailure error), after)
          | (.ok true, after) =>
              (.ok (counted text config (updated config current)), after)
          | (.ok false, after) => evaluateLoop remaining after

/-- `ThresholdEvaluator::evaluate` without interference. -/
def evaluate (store : σ) : Except EvaluatorError EvaluatorResult × σ :=
  evaluateLoop text config event 10 store

/-- Several steps of one call. -/
def advanceTimes : Nat → Progress × σ → Progress × σ
  | 0, reached => reached
  | steps + 1, (progress, store) =>
      advanceTimes steps (advance text config event progress store)

theorem advanceTimes_returned
    (steps : Nat)
    (outcome : Except EvaluatorError EvaluatorResult)
    (store : σ) :
    advanceTimes text config event steps (.returned outcome, store) =
      (.returned outcome, store) := by
  induction steps with
  | zero => rfl
  | succ steps inductionHypothesis => exact inductionHypothesis

/-- Two steps make one attempt: either the loop is over, or it goes on with
one attempt less. -/
theorem advanceTimes_attempt
    (steps attempts remaining : Nat)
    (store : σ)
    (continued : ∀ after : σ,
      advanceTimes text config event steps
          (if attempts + 1 < 10 then (.reading (attempts + 1), after)
            else (.returned (.ok contention), after)) =
        (.returned (evaluateLoop text config event remaining after).1,
          (evaluateLoop text config event remaining after).2)) :
    advanceTimes text config event (steps + 2) (.reading attempts, store) =
      (.returned (evaluateLoop text config event (remaining + 1) store).1,
        (evaluateLoop text config event (remaining + 1) store).2) := by
  cases got : StateStore.get store (windowKey config event) with
  | error error =>
      simp only [advanceTimes, advance, evaluateLoop, got]
      exact advanceTimes_returned text config event _ _ _
  | ok current =>
      rcases swap : StateStore.compareAndSwap store (windowKey config event)
        current (updated config current) with ⟨answer, after⟩
      simp only [advanceTimes, advance, evaluateLoop, got, swap]
      cases answer with
      | error error => exact advanceTimes_returned text config event _ _ _
      | ok swapped =>
          cases swapped with
          | true => exact advanceTimes_returned text config event _ _ _
          | false => exact continued after

theorem advanceTimes_eq_evaluateLoop
    (remaining : Nat)
    (left : remaining < 10)
    (store : σ) :
    advanceTimes text config event (2 * (remaining + 1))
        (.reading (9 - remaining), store) =
      (.returned (evaluateLoop text config event (remaining + 1) store).1,
        (evaluateLoop text config event (remaining + 1) store).2) := by
  induction remaining generalizing store with
  | zero =>
      refine advanceTimes_attempt text config event 0 9 0 store fun after => ?_
      rw [if_neg (by omega)]
      rfl
  | succ remaining inductionHypothesis =>
      refine advanceTimes_attempt text config event (2 * (remaining + 1))
        (9 - (remaining + 1)) (remaining + 1) store fun after => ?_
      rw [if_pos (by omega),
        show 9 - (remaining + 1) + 1 = 9 - remaining by omega]
      exact inductionHypothesis (by omega) after

/-- Left alone, a call returns what `evaluate` returns. -/
theorem advanceTimes_eq_evaluate (store : σ) :
    advanceTimes text config event 20 (.reading 0, store) =
      (.returned (evaluate text config event store).1,
        (evaluate text config event store).2) :=
  advanceTimes_eq_evaluateLoop text config event 9 (by omega) store

end Steps

end ThresholdEvaluator
end Evaluator
end Fre
