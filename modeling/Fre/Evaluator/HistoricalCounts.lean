import Fre.Evaluator.WindowedHistoricalEvaluator
import Fre.Foundation.ExactSum
import Fre.State.StoreEquivalence
import Fre.State.WriteBackWindowStore

/-!
# What the historical evaluator counts

The threshold evaluators write through a store, and the historical evaluator sums
what the store holds.  The stores keep two windows apart only when their keys are
stored under different names; for such keys the sum is the number of calls.
-/

namespace Fre
namespace Evaluator
namespace WindowedHistoricalEvaluator

open Foundation State

/-! ### The stores hold what was swapped in -/

section Stores

variable {layout : StoreLayout} {keys : Set WindowKey}

/-- The in-process store does so for keys with different key strings. -/
theorem holding_inProcess
    (distinct : Set.InjOn makeKey keys) :
    Holding keys fun store : InProcessWindowStore layout => store.get where
  get := by
    intro store key value _ got
    cases got
    rfl
  swapped := by
    intro store after key expected new member swap other otherMember
    obtain ⟨success, rfl⟩ := Prod.mk.inj swap
    have matching := (store.compareAndSwap_eq key expected new).1.symm.trans
      (Except.ok.inj success)
    split
    next same =>
      rw [same]
      exact store.get_compareAndSwap (of_decide_eq_true matching) new
    next different =>
      exact store.get_compareAndSwap_of_distinct distinct member otherMember
        different expected new
  refused := by
    intro store after key expected new member swap other otherMember
    obtain ⟨success, rfl⟩ := Prod.mk.inj swap
    have differs := (store.compareAndSwap_eq key expected new).1.symm.trans
      (Except.ok.inj success)
    rw [store.compareAndSwap_of_ne (of_decide_eq_false differs)]

/-- A swap of the write-back store is one of its in-process store. -/
theorem primary_compareAndSwap
    {store after : WriteBackWindowStore layout}
    {key : WindowKey}
    {expected new : WindowValue}
    {swapped : Bool}
    (swap : StateStore.compareAndSwap store key expected new =
      (.ok swapped, after)) :
    StateStore.compareAndSwap store.primary key expected new =
      (.ok swapped, after.primary) := by
  simp only [StateStore.compareAndSwap, WriteBackWindowStore.compareAndSwap]
    at swap ⊢
  split at swap
  next won =>
    cases swap
    rw [won]
  next lost =>
    cases swap
    rw [eq_false_of_ne_true lost]

/-- The write-back store does as its in-process store. -/
theorem holding_writeBack
    (distinct : Set.InjOn makeKey keys) :
    Holding keys fun store : WriteBackWindowStore layout => store.get where
  get := by
    intro store key value _ got
    cases got
    rfl
  swapped := fun member swap =>
    (holding_inProcess distinct).swapped member (primary_compareAndSwap swap)
  refused := fun member swap =>
    (holding_inProcess distinct).refused member (primary_compareAndSwap swap)

/-- The DuckDB store does so for keys that are different as C strings. -/
theorem holding_duckDb
    (boundDistinct : Set.InjOn bindKey keys) :
    Holding keys fun store : DuckDbWindowStore =>
      DuckDbWindowStore.rowValue store.rows where
  get := by
    intro store key value _ got
    cases available : store.available with
    | false => simp [StateStore.get, DuckDbWindowStore.get, available] at got
    | true =>
        simp only [StateStore.get, DuckDbWindowStore.get_none available] at got
        exact (Except.ok.inj got).symm
  swapped := by
    intro store after key expected new member swap other otherMember
    cases available : store.available with
    | false =>
        simp [StateStore.compareAndSwap, DuckDbWindowStore.compareAndSwap,
          available] at swap
    | true =>
        simp only [StateStore.compareAndSwap,
          DuckDbWindowStore.compareAndSwap_none available] at swap
        split at swap
        next =>
          cases swap
          dsimp only
          rw [DuckDbWindowStore.rowValue_insert,
            DuckDbWindowStore.rowValue_seedRow]
          exact if_congr (boundDistinct.eq_iff otherMember member) rfl rfl
        next => cases swap
  refused := by
    intro store after key expected new member swap other otherMember
    cases available : store.available with
    | false =>
        simp [StateStore.compareAndSwap, DuckDbWindowStore.compareAndSwap,
          available] at swap
    | true =>
        simp only [StateStore.compareAndSwap,
          DuckDbWindowStore.compareAndSwap_none available] at swap
        split at swap
        next => cases swap
        next =>
          cases swap
          exact DuckDbWindowStore.rowValue_seedRow _ _ _

end Stores

/-! ### The count -/

/-- The keys of the calls, and those that a query for the event may ask for. -/
def touched (evaluator : WindowedHistoricalEvaluator) (event : Event)
    (calls : List Call) : Set WindowKey :=
  { key | (∃ call ∈ calls,
      key = ThresholdEvaluator.windowKey call.config call.event) ∨
    ∃ epoch, key = ⟨event.tenantId, event.entityId, evaluator.windowName,
      epoch⟩ }

section History

variable {σ : Type} [StateStore σ] [RangeQueryStore σ]
  {contents : σ → WindowKey → WindowValue}

/-- The sum over the range of the query, as far as each window has counted. -/
theorem total_eq_sum_saturated
    (exactRanges : ExactRanges contents)
    {evaluator : WindowedHistoricalEvaluator}
    (positive : 0 < evaluator.windowMs)
    {text : NumberText}
    {now : Int64}
    {calls : List Call}
    (feeds : ∀ call ∈ calls, call.Feeds evaluator now)
    {event : Event}
    (holding : Holding (evaluator.touched event calls) contents)
    {initial final : σ}
    (empty : ∀ key ∈ evaluator.touched event calls, contents initial key = {})
    (ran : Machine.run (step text) initial calls = some final)
    {total : Double}
    (obtained : evaluator.total final event now = .ok total) :
    total = .finite
      (∑ epoch ∈ Finset.Icc (evaluator.startEpoch now).toNat
          (evaluator.currentEpoch now).toNat,
        ((min (callsIn evaluator event calls epoch) (2 ^ 53) : Nat) : ℚ)) := by
  refine exactRanges obtained fun epoch fromStart toCurrent => ?_
  have small : epoch < 2 ^ 64 :=
    Nat.lt_of_le_of_lt toCurrent (UInt64.toNat_lt _)
  have before : ∀ key ∈ evaluator.touched event calls,
      contents initial key = saturated 0 := by
    intro key member
    rw [empty key member]
    decide +kernel
  rw [holding.run (fun call member => .inl ⟨call, member, rfl⟩) ran before
      (.inr ⟨_, rfl⟩),
    Nat.zero_add, callsAt_eq_callsIn positive feeds event small]
  rfl

/-- After a run of successful threshold evaluators into an empty store that keeps
the windows concerned apart, the historical evaluator obtains the number of their
calls in the last windows, each window counting up to `2 ^ 53`.  When no window
has more calls this is the number of calls since the beginning of the first of
these windows. -/
theorem historical_total_counts_calls
    (exactRanges : ExactRanges contents)
    (evaluator : WindowedHistoricalEvaluator)
    (positive : 0 < evaluator.windowMs)
    (text : NumberText)
    (now : Int64)
    (calls : List Call)
    (feeds : ∀ call ∈ calls, call.Feeds evaluator now)
    (event : Event)
    (holding : Holding (evaluator.touched event calls) contents)
    (initial final : σ)
    (empty : ∀ key ∈ evaluator.touched event calls, contents initial key = {})
    (ran : Machine.run (step text) initial calls = some final)
    (total : Double)
    (obtained : evaluator.total final event now = .ok total) :
    total = .finite
      ((∑ epoch ∈ Finset.Icc
          (milliseconds now / evaluator.windowMs.toNat + 1 -
            evaluator.numWindows.toNat)
          (milliseconds now / evaluator.windowMs.toNat),
        min (callsIn evaluator event calls epoch) (2 ^ 53) : Nat) : ℚ) ∧
    ((∀ epoch, callsIn evaluator event calls epoch ≤ 2 ^ 53) →
      total = .finite ((callsSince evaluator event now calls : Nat) : ℚ)) := by
  have inRange := total_eq_sum_saturated exactRanges positive feeds holding empty
    ran obtained
  have windows : total = .finite
      ((∑ epoch ∈ Finset.Icc
          (milliseconds now / evaluator.windowMs.toNat + 1 -
            evaluator.numWindows.toNat)
          (milliseconds now / evaluator.windowMs.toNat),
        min (callsIn evaluator event calls epoch) (2 ^ 53) : Nat) : ℚ) := by
    rw [inRange, Nat.cast_sum]
    match calls with
    | [] => simp [callsIn]
    | call :: calls =>
        have feed := feeds call List.mem_cons_self
        have nonnegative := Int64.le_trans feed.nonnegative feed.past
        rw [evaluator.toNat_startEpoch positive nonnegative,
          evaluator.toNat_currentEpoch positive nonnegative]
  refine ⟨windows, fun bounded => ?_⟩
  rw [windows, ← sum_callsIn_eq_callsSince positive feeds event]
  simp only [min_eq_left (bounded _)]

end History

/-! ### Runs into a write-back store -/

/-- A write-back store whose range queries return the exact sum of the aggregates
it stores. -/
structure SummedStore (layout : StoreLayout) where
  store : WriteBackWindowStore layout

namespace SummedStore

variable {layout : StoreLayout}

/-- The store of a program that starts with nothing. -/
def empty (layout : StoreLayout) : SummedStore layout where
  store := .create (.empty layout) ⟨true, ∅⟩ .none

/-- What it holds. -/
def contents (summed : SummedStore layout) (key : WindowKey) : WindowValue :=
  summed.store.get key

instance : StateStore (SummedStore layout) where
  get summed key := StateStore.get summed.store key
  compareAndSwap summed key expected new :=
    let swap := StateStore.compareAndSwap summed.store key expected new
    (swap.1, ⟨swap.2⟩)
  expire summed key :=
    let expiry := StateStore.expire summed.store key
    (expiry.1, ⟨expiry.2⟩)
  isAvailable summed := StateStore.isAvailable summed.store

instance : RangeQueryStore (SummedStore layout) where
  queryRange summed tenantId entityId windowName epochStart epochEnd :=
    .ok (.finite (∑ epoch ∈ Finset.Icc epochStart.toNat epochEnd.toNat,
      (summed.contents ⟨tenantId, entityId, windowName,
        UInt64.ofNat epoch⟩).aggregate.toRat))

theorem holding
    {keys : Set WindowKey}
    (distinct : Set.InjOn makeKey keys) :
    Holding keys fun summed : SummedStore layout => summed.contents where
  get := (holding_writeBack distinct).get
  swapped := by
    intro store after key expected new member swap
    obtain ⟨success, rfl⟩ := Prod.mk.inj swap
    exact (holding_writeBack distinct).swapped member (Prod.ext success rfl)
  refused := by
    intro store after key expected new member swap
    obtain ⟨success, rfl⟩ := Prod.mk.inj swap
    exact (holding_writeBack distinct).refused member (Prod.ext success rfl)

theorem exactRanges :
    ExactRanges fun summed : SummedStore layout => summed.contents := by
  intro store tenantId entityId windowName epochStart epochEnd total aggregates
    queried stored
  cases queried
  refine congrArg FloatValue.finite (Finset.sum_congr rfl fun epoch inRange => ?_)
  obtain ⟨fromStart, toEnd⟩ := Finset.mem_Icc.mp inRange
  rw [stored epoch fromStart toEnd]
  rfl

/-- Every call succeeds at once. -/
theorem exists_step
    (text : NumberText)
    (summed : SummedStore layout)
    (call : Call) :
    ∃ after, step text summed call = some after := by
  let key := ThresholdEvaluator.windowKey call.config call.event
  let written := ThresholdEvaluator.updated call.config (summed.contents key)
  have won : (summed.store.compareAndSwap key (summed.contents key) written).1 =
      true := by
    have swaps := (summed.store.primary.compareAndSwap_eq key
      (summed.contents key) written).1
    rw [contents, WriteBackWindowStore.get, decide_eq_true rfl] at swaps
    rw [WriteBackWindowStore.compareAndSwap]
    exact congrArg Prod.fst (if_pos swaps)
  have swap : StateStore.compareAndSwap summed key (summed.contents key) written =
      (.ok true,
        ⟨(summed.store.compareAndSwap key (summed.contents key) written).2⟩) :=
    Prod.ext (congrArg Except.ok won) rfl
  have got : StateStore.get summed key = .ok (summed.contents key) := rfl
  have returned : ThresholdEvaluator.evaluate text call.config call.event summed =
      (.ok (ThresholdEvaluator.counted text call.config written),
        ⟨(summed.store.compareAndSwap key (summed.contents key) written).2⟩) := by
    rw [ThresholdEvaluator.evaluate, ThresholdEvaluator.evaluateLoop, got]
    dsimp only
    rw [swap]
  rw [step, returned]
  exact ⟨_, if_neg (ThresholdEvaluator.counted_ne_contention text call.config _)⟩

theorem exists_run
    (text : NumberText)
    (calls : List Call)
    (summed : SummedStore layout) :
    ∃ final, Machine.run (step text) summed calls = some final := by
  induction calls generalizing summed with
  | nil => exact ⟨summed, rfl⟩
  | cons call calls inductionHypothesis =>
      obtain ⟨after, stepped⟩ := exists_step text summed call
      obtain ⟨final, ran⟩ := inductionHypothesis after
      exact ⟨final, (Machine.run_cons_eq_some_iff _ _ _ _ _).mpr
        ⟨after, stepped, ran⟩⟩

end SummedStore

/-- One shard. -/
def oneShard : StoreLayout := ⟨fun _ => 0, 1, Nat.zero_lt_one⟩

theorem SummedStore.contents_empty (key : WindowKey) :
    (SummedStore.empty oneShard).contents key = {} :=
  InProcessWindowStore.get_empty oneShard key

/-- The last two minutes, one window for each. -/
def lastTwoMinutes : WindowedHistoricalEvaluator where
  windowName := "default"
  windowMs := 60000
  numWindows := 2
  threshold := .finite 10

/-- A call for an entity at a time in seconds. -/
def callAt (tenantId entityId : String) (seconds : Int64) : Call where
  config := {}
  event :=
    { tenantId := tenantId, entityId := entityId
      timestamp := seconds * 1000000000 }

/-- Calls for one entity without a colon touch keys with different strings. -/
theorem distinct_touched
    (calls : List Call)
    (same : ∀ call ∈ calls, ∃ seconds, call = callAt "acme" "alice" seconds)
    (seconds : Int64) :
    Set.InjOn makeKey (lastTwoMinutes.touched
      (callAt "acme" "alice" seconds).event calls) := by
  have noColon : ':' ∉ "acme".toList ∧ ':' ∉ "alice".toList := by decide
  refine makeKey_injOn_noColon.mono ?_
  rintro key (⟨call, member, rfl⟩ | ⟨epoch, rfl⟩)
  · obtain ⟨seconds, rfl⟩ := same call member
    exact noColon
  · exact noColon

/-- Of three calls in successive minutes the last two are counted. -/
theorem historical_total_three_minutes :
    let calls := [callAt "acme" "alice" 30, callAt "acme" "alice" 70,
      callAt "acme" "alice" 130]
    ∃ final, Machine.run (step ⟨fun _ => "", fun _ => 0⟩)
        (SummedStore.empty oneShard) calls = some final ∧
      ∀ total, lastTwoMinutes.total final (callAt "acme" "alice" 130).event
        150000000000 = .ok total → total = .finite 2 := by
  intro calls
  obtain ⟨final, ran⟩ := SummedStore.exists_run ⟨fun _ => "", fun _ => 0⟩ calls
    (SummedStore.empty oneShard)
  refine ⟨final, ran, fun total obtained => ?_⟩
  have feeds : ∀ call ∈ calls, call.Feeds lastTwoMinutes 150000000000 := by
    simp only [calls, List.forall_mem_cons]
    refine ⟨⟨rfl, rfl, rfl, ?_, ?_⟩, ⟨rfl, rfl, rfl, ?_, ?_⟩,
      ⟨rfl, rfl, rfl, ?_, ?_⟩, fun _ member => absurd member List.not_mem_nil⟩
    all_goals decide
  have distinct := distinct_touched calls (by
    simp only [calls, List.forall_mem_cons]
    exact ⟨⟨30, rfl⟩, ⟨70, rfl⟩, ⟨130, rfl⟩,
      fun _ member => absurd member List.not_mem_nil⟩) 130
  have counted := (historical_total_counts_calls SummedStore.exactRanges
    lastTwoMinutes (by decide) _ 150000000000 calls feeds _
    (SummedStore.holding distinct) _ final
    (fun key _ => SummedStore.contents_empty key) ran total obtained).1
  rw [counted]
  decide +kernel

/-- `2 ^ 53 + 1` calls in one window are counted as `2 ^ 53`, and the calls of two
entities whose windows have one key string are counted together. -/
theorem calls_rounded_away_or_merged :
    (ExactRanges fun summed : SummedStore oneShard => summed.contents) ∧
    (let calls := List.replicate (2 ^ 53 + 1) (callAt "acme" "alice" 0)
      ∃ final, Machine.run (step ⟨fun _ => "", fun _ => 0⟩)
          (SummedStore.empty oneShard) calls = some final ∧
        (∀ call ∈ calls, call.Feeds lastTwoMinutes 0) ∧
        ∃ total, lastTwoMinutes.total final (callAt "acme" "alice" 0).event 0 =
            .ok total ∧
          total ≠ .finite ((callsSince lastTwoMinutes
            (callAt "acme" "alice" 0).event 0 calls : Nat) : ℚ)) ∧
    (let calls := [callAt "acme" "eu:alice" 0, callAt "acme:eu" "alice" 0]
      ∃ final, Machine.run (step ⟨fun _ => "", fun _ => 0⟩)
          (SummedStore.empty oneShard) calls = some final ∧
        (∀ call ∈ calls, call.Feeds lastTwoMinutes 0) ∧
        lastTwoMinutes.total final (callAt "acme" "eu:alice" 0).event 0 =
          .ok (.finite 2) ∧
        callsSince lastTwoMinutes (callAt "acme" "eu:alice" 0).event 0 calls =
          1) := by
  refine ⟨SummedStore.exactRanges, ?_, ?_⟩
  · intro calls
    obtain ⟨final, ran⟩ := SummedStore.exists_run ⟨fun _ => "", fun _ => 0⟩ calls
      (SummedStore.empty oneShard)
    have feeds : ∀ call ∈ calls, call.Feeds lastTwoMinutes 0 := by
      intro call member
      rw [List.eq_of_mem_replicate member]
      exact ⟨rfl, rfl, rfl, by decide, by decide⟩
    have distinct := distinct_touched calls
      (fun call member => ⟨0, List.eq_of_mem_replicate member⟩) 0
    obtain ⟨total, obtained⟩ : ∃ total, lastTwoMinutes.total final
        (callAt "acme" "alice" 0).event 0 = .ok total := ⟨_, rfl⟩
    refine ⟨final, ran, feeds, total, obtained, ?_⟩
    have inWindow : callsIn lastTwoMinutes (callAt "acme" "alice" 0).event calls
        0 = 2 ^ 53 + 1 := by
      rw [callsIn, List.countP_replicate, if_pos (by decide)]
    have since : callsSince lastTwoMinutes (callAt "acme" "alice" 0).event 0
        calls = 2 ^ 53 + 1 := by
      rw [callsSince, List.countP_replicate, if_pos (by decide)]
    have startEpoch : (lastTwoMinutes.startEpoch 0).toNat = 0 := by decide
    have currentEpoch : (lastTwoMinutes.currentEpoch 0).toNat = 0 := by decide
    rw [total_eq_sum_saturated SummedStore.exactRanges (by decide) feeds
      (SummedStore.holding distinct)
      (fun key _ => SummedStore.contents_empty key) ran obtained, startEpoch,
      currentEpoch, Finset.Icc_self, Finset.sum_singleton, inWindow, since]
    decide +kernel
  · intro calls
    have answered : (Machine.run (step ⟨fun _ => "", fun _ => 0⟩)
        (SummedStore.empty oneShard) calls).map (fun final =>
          lastTwoMinutes.total final (callAt "acme" "eu:alice" 0).event 0) =
        some (.ok (.finite 2)) := by
      decide +kernel
    obtain ⟨final, ran, total⟩ := Option.map_eq_some_iff.mp answered
    refine ⟨final, ran, ?_, total, by decide⟩
    simp only [calls, List.forall_mem_cons]
    refine ⟨⟨rfl, rfl, rfl, ?_, ?_⟩, ⟨rfl, rfl, rfl, ?_, ?_⟩,
      fun _ member => absurd member List.not_mem_nil⟩
    all_goals decide

end WindowedHistoricalEvaluator
end Evaluator
end Fre
