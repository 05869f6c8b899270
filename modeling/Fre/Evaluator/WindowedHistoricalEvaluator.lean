import Fre.Evaluator.ThresholdEvaluator
import Fre.Foundation.Machine
import Mathlib.Algebra.BigOperators.Intervals
import Mathlib.Algebra.BigOperators.Ring.Finset

/-!
# The historical evaluator

`WindowedHistoricalEvaluator::evaluate` sums what the store holds for an entity
over the last windows of the clock.  The windows were filled by threshold
evaluators, by the time of the events.  Both divide milliseconds by the window
size, so the sum is the number of calls that fell into these windows, as far as
the aggregate of each window, a double, can count them.
-/

namespace Fre
namespace Evaluator

open Foundation State

/-- The `RangeQueryStore` concept. -/
class RangeQueryStore (σ : Type) where
  queryRange : σ → String → String → String → UInt64 → UInt64 →
    Except StoreError Double

/-- `WindowedHistoricalEvaluator`, without its store. -/
structure WindowedHistoricalEvaluator where
  windowName : String
  windowMs : UInt64
  numWindows : UInt32
  threshold : Double

namespace WindowedHistoricalEvaluator

/-- The epoch of the clock, `now` in nanoseconds. -/
def currentEpoch (evaluator : WindowedHistoricalEvaluator) (now : Int64) :
    UInt64 :=
  let nowMs := (now / 1000000).toUInt64
  if 0 < evaluator.windowMs then nowMs / evaluator.windowMs else 0

/-- The first epoch of the query. -/
def startEpoch (evaluator : WindowedHistoricalEvaluator) (now : Int64) :
    UInt64 :=
  let currentEpoch := evaluator.currentEpoch now
  if evaluator.numWindows.toUInt64 ≤ currentEpoch then
    currentEpoch - evaluator.numWindows.toUInt64 + 1
  else 0

section Store

variable {σ : Type} [RangeQueryStore σ]

/-- What `evaluate` obtains from the store. -/
def total (evaluator : WindowedHistoricalEvaluator) (store : σ) (event : Event)
    (now : Int64) : Except StoreError Double :=
  RangeQueryStore.queryRange store event.tenantId event.entityId
    evaluator.windowName (evaluator.startEpoch now) (evaluator.currentEpoch now)

/-- `WindowedHistoricalEvaluator::evaluate`. -/
def evaluate (evaluator : WindowedHistoricalEvaluator) (store : σ)
    (event : Event) (now : Int64) : Except EvaluatorError EvaluatorResult :=
  match evaluator.total store event now with
  | .error error =>
      .error
        { code := .internalError
          evaluatorId := "WindowedHistoricalEvaluator"
          detail := error.detail }
  | .ok total =>
      .ok
        { evaluatorId := "WindowedHistoricalEvaluator"
          verdict := if evaluator.threshold.le total then .flag else .pass }

end Store

/-! ### Epochs -/

/-- A time that is not negative, in whole milliseconds. -/
def milliseconds (time : Int64) : Nat := time.toInt.toNat / 1000000

theorem toNat_toUInt64_div
    {time : Int64}
    (nonnegative : 0 ≤ time) :
    (time / 1000000).toUInt64.toNat = milliseconds time := by
  have quotient : (time / 1000000).toInt = time.toInt.tdiv 1000000 :=
    Int64.toInt_div_of_ne_right time 1000000 (by decide)
  obtain ⟨count, isCount⟩ :=
    Int.eq_ofNat_of_zero_le (Int64.le_iff_toInt_le.mp nonnegative)
  have quotientCount :
      (time / 1000000).toInt = ((count / 1000000 : Nat) : Int) := by
    rw [quotient, isCount]
    rfl
  have quotientNonnegative : 0 ≤ time / 1000000 := by
    rw [Int64.le_iff_toInt_le, quotientCount]
    exact Int.natCast_nonneg _
  rw [Int64.toNat_toUInt64_of_le quotientNonnegative, milliseconds, isCount]
  exact congrArg Int.toNat quotientCount

/-- Both evaluators have the epoch of a time. -/
theorem toNat_currentEpoch
    (evaluator : WindowedHistoricalEvaluator)
    (positive : 0 < evaluator.windowMs)
    {now : Int64}
    (nonnegative : 0 ≤ now) :
    (evaluator.currentEpoch now).toNat =
      milliseconds now / evaluator.windowMs.toNat := by
  rw [currentEpoch, if_pos positive, UInt64.toNat_div,
    toNat_toUInt64_div nonnegative]

/-- The last windows begin with the window of `now`, counted back. -/
theorem toNat_startEpoch
    (evaluator : WindowedHistoricalEvaluator)
    (positive : 0 < evaluator.windowMs)
    {now : Int64}
    (nonnegative : 0 ≤ now) :
    (evaluator.startEpoch now).toNat =
      milliseconds now / evaluator.windowMs.toNat + 1 -
        evaluator.numWindows.toNat := by
  have current := evaluator.toNat_currentEpoch positive nonnegative
  have small : (evaluator.currentEpoch now).toNat < 2 ^ 63 := by
    have nowSmall := now.toInt_lt
    have atMost := Nat.div_le_self (milliseconds now) evaluator.windowMs.toNat
    have millisecondsAtMost := Nat.div_le_self now.toInt.toNat 1000000
    rw [← milliseconds] at millisecondsAtMost
    omega
  rw [← current, startEpoch]
  split
  next back =>
    have backNat := UInt64.le_iff_toNat_le.mp back
    rw [UInt32.toNat_toUInt64] at backNat
    rw [UInt64.toNat_add, UInt64.toNat_sub_of_le _ _ back, UInt32.toNat_toUInt64,
      UInt64.toNat_one, Nat.mod_eq_of_lt (by omega)]
    omega
  next notBack =>
    have notBackNat := mt UInt64.le_iff_toNat_le.mpr notBack
    rw [UInt32.toNat_toUInt64] at notBackNat
    rw [UInt64.toNat_zero]
    omega

/-- The epoch that a threshold evaluator with this window size gives to an
event. -/
theorem toNat_thresholdEpoch
    {config : ThresholdEvaluatorConfig}
    {windowMs : UInt64}
    (sameSize : config.windowDuration.toUInt64 = windowMs)
    (positive : 0 < windowMs)
    {event : Event}
    (nonnegative : 0 ≤ event.timestamp) :
    (ThresholdEvaluator.currentEpoch config event).toNat =
      milliseconds event.timestamp / windowMs.toNat := by
  have nonzero : windowMs ≠ 0 := by
    rintro rfl
    exact absurd positive (by decide)
  rw [ThresholdEvaluator.currentEpoch, sameSize, if_neg nonzero,
    UInt64.toNat_div, toNat_toUInt64_div nonnegative]

/-! ### Counts in a double -/

/-- The value of a window after a number of counted calls. -/
def saturated (count : Nat) : WindowValue where
  aggregate := .finite (min count (2 ^ 53) : Nat)
  version := UInt64.ofNat count

/-- Adding one stops at `2 ^ 53`, where the sum is rounded back. -/
theorem add_one_saturated (count : Nat) :
    (saturated count).aggregate.add .binary64 (.finite 1) =
      (saturated (count + 1)).aggregate := by
  obtain below | reached := Nat.lt_or_ge (count + 1) (2 ^ 53)
  · rw [saturated, saturated, min_eq_left (by omega), min_eq_left (by omega)]
    exact FloatValue.add_one_natCast .binary64 below
  · rw [saturated, saturated, min_eq_right reached]
    obtain full | rfl : 2 ^ 53 ≤ count ∨ count = 2 ^ 53 - 1 := by omega
    · rw [min_eq_right full]
      have rounded : FloatValue.add .binary64 (.finite ((2 ^ 53 : Nat) : ℚ))
          (.finite 1) = .finite ((2 ^ 53 : Nat) : ℚ) := by
        decide +kernel
      exact rounded
    · decide +kernel

/-- An attempt that read the value of a number of calls writes the next one. -/
theorem updated_saturated
    (config : ThresholdEvaluatorConfig)
    (count : Nat) :
    ThresholdEvaluator.updated config (saturated count) =
      saturated (count + 1) := by
  have aggregate : ThresholdEvaluator.aggregateValue config
      (saturated count).aggregate = (saturated (count + 1)).aggregate := by
    unfold ThresholdEvaluator.aggregateValue
    split
    next => exact add_one_saturated count
    next => exact add_one_saturated count
    next => exact add_one_saturated count
  have version : (saturated count).version + 1 =
      (saturated (count + 1)).version :=
    (UInt64.ofNat_add count 1).symm
  rw [ThresholdEvaluator.updated, aggregate, version]

/-! ### Runs of threshold evaluators -/

/-- A call of `ThresholdEvaluator::evaluate`. -/
structure Call where
  config : ThresholdEvaluatorConfig
  event : Event

section Runs

variable {σ : Type} [StateStore σ]

/-- A successful call: it returns a result, and not for contention. -/
def step (text : NumberText) (store : σ) (call : Call) : Option σ :=
  match ThresholdEvaluator.evaluate text call.config call.event store with
  | (.ok result, after) =>
      if result.reasonCode = ThresholdEvaluator.contention.reasonCode then none
      else some after
  | (.error _, _) => none

/-- What the evaluators rely on for the keys: each store holds `contents`, reads
return them, and a swap that succeeds changes them at its key only. -/
structure Holding (keys : Set WindowKey)
    (contents : σ → WindowKey → WindowValue) : Prop where
  get : ∀ {store key value}, key ∈ keys → StateStore.get store key = .ok value →
    value = contents store key
  swapped : ∀ {store after : σ} {key expected new}, key ∈ keys →
    StateStore.compareAndSwap store key expected new = (.ok true, after) →
      ∀ other ∈ keys, contents after other =
        if other = key then new else contents store other
  refused : ∀ {store after : σ} {key expected new}, key ∈ keys →
    StateStore.compareAndSwap store key expected new = (.ok false, after) →
      ∀ other ∈ keys, contents after other = contents store other

section Keys

variable {keys : Set WindowKey} {contents : σ → WindowKey → WindowValue}

/-- A successful call counts its event in its window and changes no other
window. -/
theorem Holding.evaluateLoop
    (holding : Holding keys contents)
    {text : NumberText}
    {config : ThresholdEvaluatorConfig}
    {event : Event}
    (member : ThresholdEvaluator.windowKey config event ∈ keys)
    {remaining : Nat}
    {store after : σ}
    {result : EvaluatorResult}
    (returned : ThresholdEvaluator.evaluateLoop text config event remaining
      store = (.ok result, after))
    (won : result.reasonCode ≠ ThresholdEvaluator.contention.reasonCode)
    {other : WindowKey}
    (otherMember : other ∈ keys) :
    contents after other =
      if other = ThresholdEvaluator.windowKey config event then
        ThresholdEvaluator.updated config (contents store other)
      else contents store other := by
  induction remaining generalizing store with
  | zero =>
      cases returned
      exact absurd rfl won
  | succ remaining inductionHypothesis =>
      rw [ThresholdEvaluator.evaluateLoop] at returned
      split at returned
      next => cases returned
      next current got =>
        obtain rfl := holding.get member got
        split at returned
        next => cases returned
        next swap =>
          cases returned
          rw [holding.swapped member swap other otherMember]
          split
          next same => rw [same]
          next => rfl
        next middle swap =>
          rw [← holding.refused member swap other otherMember]
          exact inductionHypothesis returned

theorem Holding.step
    (holding : Holding keys contents)
    {text : NumberText}
    {store after : σ}
    {call : Call}
    (member : ThresholdEvaluator.windowKey call.config call.event ∈ keys)
    (stepped : step text store call = some after)
    {other : WindowKey}
    (otherMember : other ∈ keys) :
    contents after other =
      if other = ThresholdEvaluator.windowKey call.config call.event then
        ThresholdEvaluator.updated call.config (contents store other)
      else contents store other := by
  unfold WindowedHistoricalEvaluator.step at stepped
  split at stepped
  next result reached returned =>
    split at stepped
    next => cases stepped
    next won =>
      cases stepped
      exact holding.evaluateLoop member returned won otherMember
  next => cases stepped

end Keys

/-- The number of calls on a key. -/
def callsAt (calls : List Call) (key : WindowKey) : Nat :=
  calls.countP fun call =>
    decide (ThresholdEvaluator.windowKey call.config call.event = key)

/-- After a run over the keys each of their windows has counted its calls. -/
theorem Holding.run
    {keys : Set WindowKey}
    {contents : σ → WindowKey → WindowValue}
    (holding : Holding keys contents)
    {text : NumberText}
    {calls : List Call}
    (members : ∀ call ∈ calls,
      ThresholdEvaluator.windowKey call.config call.event ∈ keys)
    {initial final : σ}
    (ran : Machine.run (WindowedHistoricalEvaluator.step text) initial calls =
      some final)
    {counts : WindowKey → Nat}
    (before : ∀ key ∈ keys, contents initial key = saturated (counts key))
    {key : WindowKey}
    (member : key ∈ keys) :
    contents final key = saturated (counts key + callsAt calls key) := by
  induction calls generalizing initial counts with
  | nil =>
      cases ran
      exact before key member
  | cons call calls inductionHypothesis =>
      obtain ⟨middle, stepped, rest⟩ :=
        (Machine.run_cons_eq_some_iff _ _ _ _ _).mp ran
      have written := members call List.mem_cons_self
      have counted : ∀ key ∈ keys, contents middle key =
          saturated (counts key +
            if ThresholdEvaluator.windowKey call.config call.event = key then 1
            else 0) := by
        intro key member
        rw [holding.step written stepped member]
        split
        next same => rw [if_pos same.symm, before key member, updated_saturated]
        next other =>
          rw [if_neg (Ne.symm other), Nat.add_zero, before key member]
      rw [inductionHypothesis
          (fun other present => members other (List.mem_cons_of_mem call present))
          rest counted,
        callsAt, callsAt, List.countP_cons]
      simp only [decide_eq_true_eq]
      congr 1
      omega

end Runs

/-! ### Totals -/

section Totals

variable {σ : Type} [RangeQueryStore σ]

/-- Range queries return the exact sum of the stored aggregates over the epochs
of the range, both ends included. -/
def ExactRanges (contents : σ → WindowKey → WindowValue) : Prop :=
  ∀ {store : σ} {tenantId entityId windowName : String}
    {epochStart epochEnd : UInt64} {total : Double} {aggregates : Nat → ℚ},
    RangeQueryStore.queryRange store tenantId entityId windowName epochStart
      epochEnd = .ok total →
    (∀ epoch, epochStart.toNat ≤ epoch → epoch ≤ epochEnd.toNat →
      (contents store ⟨tenantId, entityId, windowName,
        UInt64.ofNat epoch⟩).aggregate = .finite (aggregates epoch)) →
    total = .finite
      (∑ epoch ∈ Finset.Icc epochStart.toNat epochEnd.toNat, aggregates epoch)

end Totals

/-- The call is for the tenant and the entity of the event. -/
def Call.isFor (event : Event) (call : Call) : Bool :=
  call.event.tenantId == event.tenantId && call.event.entityId == event.entityId

/-- The call writes the windows that the evaluator reads, for an event of the
past. -/
structure Call.Feeds (evaluator : WindowedHistoricalEvaluator) (now : Int64)
    (call : Call) : Prop where
  name : call.config.windowName = evaluator.windowName
  size : call.config.windowDuration.toUInt64 = evaluator.windowMs
  grouping : call.config.groupBy = .entityId
  nonnegative : 0 ≤ call.event.timestamp
  past : call.event.timestamp ≤ now

/-- The number of calls for the tenant and the entity in a window. -/
def callsIn (evaluator : WindowedHistoricalEvaluator) (event : Event)
    (calls : List Call) (epoch : Nat) : Nat :=
  calls.countP fun call => call.isFor event &&
    decide (milliseconds call.event.timestamp / evaluator.windowMs.toNat = epoch)

/-- The number of calls for the tenant and the entity since the first of the
last windows. -/
def callsSince (evaluator : WindowedHistoricalEvaluator) (event : Event)
    (now : Int64) (calls : List Call) : Nat :=
  calls.countP fun call => call.isFor event &&
    decide (evaluator.windowMs.toNat *
        (milliseconds now / evaluator.windowMs.toNat + 1 -
          evaluator.numWindows.toNat) ≤ milliseconds call.event.timestamp)

/-- The calls on a key of the query are those in its window. -/
theorem callsAt_eq_callsIn
    {evaluator : WindowedHistoricalEvaluator}
    (positive : 0 < evaluator.windowMs)
    {now : Int64}
    {calls : List Call}
    (feeds : ∀ call ∈ calls, call.Feeds evaluator now)
    (event : Event)
    {epoch : Nat}
    (small : epoch < 2 ^ 64) :
    callsAt calls ⟨event.tenantId, event.entityId, evaluator.windowName,
      UInt64.ofNat epoch⟩ = callsIn evaluator event calls epoch := by
  refine List.countP_congr fun call member => ?_
  have feed := feeds call member
  have epochEq := toNat_thresholdEpoch feed.size positive feed.nonnegative
  have sameEpoch : ThresholdEvaluator.currentEpoch call.config call.event =
      UInt64.ofNat epoch ↔
        milliseconds call.event.timestamp / evaluator.windowMs.toNat = epoch := by
    rw [← UInt64.toNat_inj, epochEq, UInt64.toNat_ofNat_of_lt' small]
  have entity : ThresholdEvaluator.entityKey call.config call.event =
      call.event.entityId := by
    rw [ThresholdEvaluator.entityKey, feed.grouping]
  simp only [ThresholdEvaluator.windowKey, entity, feed.name, WindowKey.mk.injEq,
    sameEpoch, Call.isFor, decide_eq_true_eq, Bool.and_eq_true, beq_iff_eq,
    true_and, and_assoc]

/-- Counting by windows. -/
theorem sum_callsIn
    (evaluator : WindowedHistoricalEvaluator)
    (event : Event)
    (calls : List Call)
    (epochs : Finset Nat) :
    ∑ epoch ∈ epochs, callsIn evaluator event calls epoch =
      calls.countP fun call => call.isFor event &&
        decide (milliseconds call.event.timestamp / evaluator.windowMs.toNat ∈
          epochs) := by
  induction calls with
  | nil => simp [callsIn]
  | cons call calls inductionHypothesis =>
      simp only [callsIn, List.countP_cons] at inductionHypothesis ⊢
      rw [Finset.sum_add_distrib, inductionHypothesis]
      congr 1
      cases call.isFor event with
      | false => simp
      | true => simp [Finset.sum_ite_eq]

theorem milliseconds_mono
    {early late : Int64}
    (ordered : early ≤ late) :
    milliseconds early ≤ milliseconds late :=
  Nat.div_le_div_right (Int.toNat_le_toNat (Int64.le_iff_toInt_le.mp ordered))

/-- The calls in the last windows are those since the first of them. -/
theorem sum_callsIn_eq_callsSince
    {evaluator : WindowedHistoricalEvaluator}
    (positive : 0 < evaluator.windowMs)
    {now : Int64}
    {calls : List Call}
    (feeds : ∀ call ∈ calls, call.Feeds evaluator now)
    (event : Event) :
    ∑ epoch ∈ Finset.Icc
        (milliseconds now / evaluator.windowMs.toNat + 1 -
          evaluator.numWindows.toNat)
        (milliseconds now / evaluator.windowMs.toNat),
      callsIn evaluator event calls epoch =
        callsSince evaluator event now calls := by
  have sizePositive : 0 < evaluator.windowMs.toNat :=
    UInt64.lt_iff_toNat_lt.mp positive
  rw [sum_callsIn]
  refine List.countP_congr fun call member => ?_
  have notLater : milliseconds call.event.timestamp / evaluator.windowMs.toNat ≤
      milliseconds now / evaluator.windowMs.toNat :=
    Nat.div_le_div_right (milliseconds_mono (feeds call member).past)
  rw [Bool.and_eq_true, Bool.and_eq_true, decide_eq_true_eq, decide_eq_true_eq,
    Finset.mem_Icc, Nat.le_div_iff_mul_le sizePositive, mul_comm]
  exact and_congr_right fun _ => and_iff_left notLater

end WindowedHistoricalEvaluator
end Evaluator
end Fre
