import Fre.Evaluator.Contention
import Fre.State.LockedWindowStore
import Mathlib.Data.List.Forall2
import Mathlib.Data.List.Perm.Basic

/-!
# Ten evaluations of one window

`evaluate` gives up after ten attempts.  A swap fails only if another one has
succeeded since the value was read, so a call that has lost ten times has seen
ten other calls count.  Up to ten calls therefore all count, however their steps
around the mutexes of the store interleave.
-/

namespace Fre
namespace Evaluator
namespace LockedCounting

open Foundation State ThresholdEvaluator LockedWindowStore Contention

variable {layout : StoreLayout}

/-- One call of `evaluate`, as a client of the store. -/
structure Evaluation where
  config : ThresholdEvaluatorConfig
  event : Event
  progress : Progress := .reading 0

/-- The window of the call. -/
def Evaluation.key (own : Evaluation) : WindowKey :=
  windowKey own.config own.event

/-- The calls of the store that `evaluate` makes. -/
def evaluations (text : NumberText) :
    Monitors.Client Evaluation Operation Result where
  request := fun own =>
    match own.progress with
    | .reading _ => some (.get own.key)
    | .swapping _ current =>
        some (.compareAndSwap own.key current (updated own.config current))
    | .returned _ => none
  resume := fun own result =>
    match own.progress, result with
    | .reading attempts, .value current =>
        { own with progress := .swapping attempts current }
    | .swapping _ current, .swapped true =>
        { own with
          progress := .returned
            (.ok (counted text own.config (updated own.config current))) }
    | .swapping attempts _, .swapped false =>
        { own with
          progress :=
            if attempts + 1 < 10 then .reading (attempts + 1)
            else .returned (.ok contention) }
    | _, _ => own

/-- The client makes the steps of `evaluate`. -/
theorem advance_eq
    (text : NumberText)
    (own : Evaluation)
    {operation : Operation}
    (requested : (evaluations text).request own = some operation)
    (store : InProcessWindowStore layout) :
    ThresholdEvaluator.advance text own.config own.event own.progress store =
      (((evaluations text).resume own (store.apply operation).1).progress,
        (store.apply operation).2) := by
  obtain ⟨config, event, progress⟩ := own
  cases progress with
  | reading attempts =>
      cases requested
      rfl
  | swapping attempts current =>
      cases requested
      cases swapped : (store.compareAndSwap (windowKey config event) current
          (updated config current)).1 with
      | true =>
          simp [ThresholdEvaluator.advance, StateStore.compareAndSwap,
            InProcessWindowStore.apply, Evaluation.key, evaluations, swapped]
      | false =>
          simp only [ThresholdEvaluator.advance, StateStore.compareAndSwap,
            InProcessWindowStore.apply, Evaluation.key, evaluations, swapped]
          split
          · rfl
          · rfl
  | returned outcome => cases requested

/-! ### Calls that lose -/

/-- A call has not failed more often than others have succeeded, and with a
stale value it will fail once more. -/
def Behind (store : InProcessWindowStore layout) (successes : Nat)
    (call : Call) : Prop :=
  match call.progress with
  | .reading attempts => call.rank = none ∧ attempts ≤ successes
  | .swapping attempts current =>
      call.rank = none ∧ attempts ≤ successes ∧
        ((store.get (windowKey call.config call.event)).version ≠
          current.version → attempts + 1 ≤ successes)
  | .returned _ => call.rank = none → 10 ≤ successes

/-- Without expiry every success has one call, and no call is behind. -/
structure Ranked (key : WindowKey) (system : System layout) : Prop where
  window : ∀ call ∈ system.calls, windowKey call.config call.event = key
  ranks : ∀ rank,
    system.calls.countP (fun call => decide (call.rank = some rank)) =
      if 1 ≤ rank ∧ rank ≤ system.successes then 1 else 0
  won : system.calls.countP (fun call => call.rank.isSome) = system.successes
  behind : ∀ call ∈ system.calls, Behind system.store system.successes call

theorem ranked_initial (key : WindowKey) :
    Ranked key (System.initial layout) where
  window := fun call member => nomatch member
  ranks := by
    intro rank
    rw [if_neg]
    · rfl
    · simp only [System.initial]
      omega
  won := rfl
  behind := fun call member => nomatch member

/-- A call is not behind any more after a success of another one. -/
theorem Behind.succ
    {store after : InProcessWindowStore layout}
    {successes : Nat}
    {call : Call}
    (behind : Behind store successes call) :
    Behind after (successes + 1) call := by
  unfold Behind at behind ⊢
  cases progress : call.progress with
  | reading attempts =>
      rw [progress] at behind
      exact ⟨behind.1, Nat.le_succ_of_le behind.2⟩
  | swapping attempts current =>
      rw [progress] at behind
      exact ⟨behind.1, Nat.le_succ_of_le behind.2.1, fun _ =>
        Nat.succ_le_succ behind.2.1⟩
  | returned outcome =>
      rw [progress] at behind
      exact fun unranked => Nat.le_succ_of_le (behind unranked)

/-- A swap with a stale value is lost. -/
theorem step_lost
    {text : NumberText}
    {key : WindowKey}
    {system : System layout}
    {index attempts : Nat}
    {call : Call}
    {current : WindowValue}
    (present : system.calls[index]? = some call)
    (progress : call.progress = .swapping attempts current)
    (stale : (system.store.get (windowKey call.config call.event)).version ≠
      current.version) :
    Contention.step text key system (.advance index) =
      some { system with
        calls := system.calls.set index { call with
          progress :=
            if attempts + 1 < 10 then .reading (attempts + 1)
            else .returned (.ok contention) } } := by
  have unchanged := InProcessWindowStore.compareAndSwap_of_ne system.store stale
    (updated call.config current)
  simp only [Contention.step, present, Call.hasReturned, progress, Call.wins,
    ThresholdEvaluator.advance, StateStore.compareAndSwap, unchanged,
    Bool.false_eq_true, if_false]
  split <;> rfl

/-- A swap with the current value is won. -/
theorem step_won
    {text : NumberText}
    {key : WindowKey}
    {system next : System layout}
    {index attempts : Nat}
    {call : Call}
    {current : WindowValue}
    (present : system.calls[index]? = some call)
    (progress : call.progress = .swapping attempts current)
    (fresh : (system.store.get (windowKey call.config call.event)).version =
      current.version)
    (stepped : Contention.step text key system (.advance index) = some next) :
    ∃ store outcome,
      next =
        { store := store
          calls := system.calls.set index { call with
            progress := .returned outcome
            rank := some (system.successes + 1) }
          successes := system.successes + 1 } := by
  obtain ⟨success, -⟩ := system.store.compareAndSwap_eq
    (windowKey call.config call.event) current (updated call.config current)
  rw [decide_eq_true fresh] at success
  simp only [Contention.step, present, Call.hasReturned, progress, Call.wins,
    ThresholdEvaluator.advance, StateStore.compareAndSwap, success,
    Bool.false_eq_true, if_false, if_true, Option.some.injEq] at stepped
  exact ⟨_, _, stepped.symm⟩

/-- A call that is replaced by one with the same rank leaves the ranks. -/
theorem Ranked.set
    {key : WindowKey}
    {system : System layout}
    (ranked : Ranked key system)
    {index : Nat}
    {old new : Call}
    (present : system.calls[index]? = some old)
    (sameWindow : windowKey new.config new.event = key)
    (sameRank : new.rank = old.rank)
    (newBehind : Behind system.store system.successes new) :
    Ranked key { system with calls := system.calls.set index new } where
  window := Threads.forall_mem_set ranked.window sameWindow
  ranks := by
    intro rank
    have moved := Threads.countP_set_add
      (fun call : Call => decide (call.rank = some rank)) present new
    rw [sameRank] at moved
    exact (Nat.add_right_cancel moved).trans (ranked.ranks rank)
  won := by
    have moved := Threads.countP_set_add
      (fun call : Call => call.rank.isSome) present new
    rw [sameRank] at moved
    exact (Nat.add_right_cancel moved).trans ranked.won
  behind := Threads.forall_mem_set ranked.behind newBehind

/-- The call that succeeds gets the next rank. -/
theorem Ranked.win
    {key : WindowKey}
    {system : System layout}
    (ranked : Ranked key system)
    {index : Nat}
    {call : Call}
    (present : system.calls[index]? = some call)
    (window : windowKey call.config call.event = key)
    (unranked : call.rank = none)
    {store : InProcessWindowStore layout}
    {outcome : Except EvaluatorError EvaluatorResult} :
    Ranked key
      { store := store
        calls := system.calls.set index { call with
          progress := .returned outcome
          rank := some (system.successes + 1) }
        successes := system.successes + 1 } where
  window := Threads.forall_mem_set ranked.window window
  ranks := by
    intro rank
    have moved := Threads.countP_set_add
      (fun other : Call => decide (other.rank = some rank)) present
      { call with
        progress := .returned outcome
        rank := some (system.successes + 1) }
    rw [ranked.ranks rank, unranked] at moved
    dsimp only at moved ⊢
    by_cases own : rank = system.successes + 1
    · subst own
      rw [if_neg (by omega)] at moved
      rw [if_pos (by omega)]
      simpa using moved
    · have sameBound : (1 ≤ rank ∧ rank ≤ system.successes + 1) ↔
          (1 ≤ rank ∧ rank ≤ system.successes) := by omega
      rw [if_congr sameBound rfl rfl]
      simpa [Ne.symm own] using moved
  won := by
    have moved := Threads.countP_set_add
      (fun other : Call => other.rank.isSome) present
      { call with
        progress := .returned outcome
        rank := some (system.successes + 1) }
    rw [ranked.won, unranked] at moved
    simpa using moved
  behind := by
    refine Threads.forall_mem_set
      (fun other member => (ranked.behind other member).succ) ?_
    intro impossible
    cases impossible

/-- Calls keep their ranks, and no call falls behind. -/
theorem Ranked.step
    {text : NumberText}
    {key : WindowKey}
    {system next : System layout}
    {action : Contention.Action}
    (ranked : Ranked key system)
    (noExpiry : action ≠ .expire)
    (stepped : Contention.step text key system action = some next) :
    Ranked key next := by
  cases action with
  | expire => exact absurd rfl noExpiry
  | invoke config event =>
      simp only [Contention.step] at stepped
      split at stepped
      next matching =>
        cases stepped
        refine ⟨Threads.forall_mem_concat ranked.window matching, ?_, ?_,
          Threads.forall_mem_concat ranked.behind ⟨rfl, Nat.zero_le _⟩⟩
        · intro rank
          rw [List.countP_append, ranked.ranks rank]
          rfl
        · rw [List.countP_append, ranked.won]
          rfl
      next => cases stepped
  | advance index =>
      obtain ⟨call, present, happened⟩ := step_advance_cases stepped
      have member := List.mem_of_getElem? present
      have window := ranked.window call member
      have behind := ranked.behind call member
      unfold Behind at behind
      cases progress : call.progress with
      | reading attempts =>
          rw [progress] at behind
          rcases happened with ⟨_, same, rfl⟩ | ⟨_, _, other, -⟩ |
            ⟨_, _, _, other, -⟩
          · rw [progress] at same
            cases same
            exact ranked.set present window rfl
              ⟨behind.1, behind.2, fun stale => absurd rfl stale⟩
          · rw [progress] at other
            cases other
          · rw [progress] at other
            cases other
      | swapping attempts current =>
          rw [progress] at behind
          obtain ⟨unranked, few, onceMore⟩ := behind
          by_cases fresh :
              (system.store.get (windowKey call.config call.event)).version =
                current.version
          · obtain ⟨store, outcome, rfl⟩ := step_won present progress fresh stepped
            exact ranked.win present window unranked
          · rw [step_lost present progress fresh, Option.some.injEq] at stepped
            subst stepped
            refine ranked.set present window rfl ?_
            unfold Behind
            by_cases again : attempts + 1 < 10
            · simp only [if_pos again]
              exact ⟨unranked, onceMore fresh⟩
            · simp only [if_neg again]
              exact fun _ => (Nat.le_of_not_lt again).trans (onceMore fresh)
      | returned outcome =>
          rcases happened with ⟨_, other, -⟩ | ⟨_, _, other, -⟩ |
            ⟨_, _, _, other, -⟩
          all_goals
            rw [progress] at other
            cases other

/-! ### Calls of the store and calls of `evaluate` -/

/-- A call as a client of the store. -/
def ofCall (call : Call) : Evaluation := ⟨call.config, call.event, call.progress⟩

/-- A call that has not begun. -/
def Evaluation.Fresh (key : WindowKey) (own : Evaluation) : Prop :=
  own.progress = .reading 0 ∧ own.key = key

/-- The clients of the store are the calls of the system. -/
structure Mirrors (plain : StoreSystem layout Evaluation)
    (system : System layout) : Prop where
  store : plain.store = system.store
  clients : plain.clients = system.calls.map ofCall

/-- A result changes only the progress of a call. -/
theorem resume_eq
    (text : NumberText)
    (own : Evaluation)
    (result : Result) :
    (evaluations text).resume own result =
      { own with progress := ((evaluations text).resume own result).progress } := by
  simp only [evaluations]
  split <;> rfl

/-- A call that has not returned can take its next step. -/
theorem exists_step_advance
    (text : NumberText)
    (key : WindowKey)
    {system : System layout}
    {index : Nat}
    {call : Call}
    (present : system.calls[index]? = some call)
    (running : call.hasReturned = false) :
    ∃ next rank,
      Contention.step text key system (.advance index) = some next ∧
        next.store = (ThresholdEvaluator.advance text call.config call.event
          call.progress system.store).2 ∧
        next.calls = system.calls.set index { call with
          progress := (ThresholdEvaluator.advance text call.config call.event
            call.progress system.store).1
          rank := rank } := by
  simp only [Contention.step, present, running, Bool.false_eq_true, if_false,
    Option.some.injEq, exists_and_left, exists_eq_left', true_and]
  exact ⟨_, rfl⟩

/-- Every step of the clients is a step of the calls, and none of them an
expiry. -/
theorem Mirrors.step
    {text : NumberText}
    {key : WindowKey}
    {plain after : StoreSystem layout Evaluation}
    {system : System layout}
    (mirrors : Mirrors plain system)
    {call : Monitors.Call Evaluation}
    (fresh : ∀ own ∈ call.started, own.Fresh key)
    (stepped : storeStep (evaluations text) plain call = some after) :
    ∃ action next, action ≠ .expire ∧
      Contention.step text key system action = some next ∧
      Mirrors after next := by
  cases call with
  | start new =>
      obtain ⟨begins, window⟩ := fresh new rfl
      cases stepped
      refine ⟨.invoke new.config new.event, _, (fun same => by cases same),
        if_pos window, mirrors.store, ?_⟩
      rw [mirrors.clients, List.map_append]
      simp only [ofCall, List.map_cons, List.map_nil, ← begins]
  | perform index =>
      simp only [storeStep, mirrors.clients, List.getElem?_map] at stepped
      cases present : system.calls[index]? with
      | none => simp [present] at stepped
      | some own =>
          simp only [present, Option.map_some] at stepped
          split at stepped
          next operation requested =>
            cases stepped
            have running : own.hasReturned = false := by
              unfold Call.hasReturned
              cases progress : own.progress with
              | returned outcome => simp [evaluations, ofCall, progress] at requested
              | _ => rfl
            have advanced := advance_eq text (ofCall own) requested system.store
            have resumed := resume_eq text (ofCall own)
              (system.store.apply operation).1
            obtain ⟨next, rank, nextStepped, store, calls⟩ :=
              exists_step_advance text key present running
            refine ⟨.advance index, next, (fun same => by cases same),
              nextStepped, ?_, ?_⟩
            · rw [store, mirrors.store]
              exact (congrArg Prod.snd advanced).symm
            · rw [calls, List.map_set, mirrors.store, resumed]
              rw [show ThresholdEvaluator.advance text own.config own.event
                own.progress system.store = _ from advanced]
              rfl
          next => cases stepped

/-- What is known of the calls: every success has its call, and the stored value
is their number. -/
structure Known (text : NumberText) (key : WindowKey)
    (plain : StoreSystem layout Evaluation) (system : System layout) : Prop where
  mirrors : Mirrors plain system
  ranked : Ranked key system
  counting : Counting text key system

/-- There are no more successes than calls. -/
theorem Known.successes_le
    {text : NumberText}
    {key : WindowKey}
    {plain : StoreSystem layout Evaluation}
    {system : System layout}
    (known : Known text key plain system) :
    system.successes ≤ plain.clients.length := by
  rw [← known.ranked.won, known.mirrors.clients, List.length_map]
  exact List.countP_le_length

theorem length_of_storeStep
    {text : NumberText}
    {plain after : StoreSystem layout Evaluation}
    {call : Monitors.Call Evaluation}
    (stepped : storeStep (evaluations text) plain call = some after) :
    after.clients.length = plain.clients.length + call.started.toList.length := by
  cases call with
  | start new =>
      cases stepped
      exact List.length_append
  | perform index =>
      simp only [storeStep] at stepped
      split at stepped
      next =>
        split at stepped
        next =>
          cases stepped
          exact List.length_set
        next => cases stepped
      next => cases stepped

/-- What is known of up to ten calls stays known. -/
theorem Known.run
    {text : NumberText}
    {key : WindowKey}
    {plain final : StoreSystem layout Evaluation}
    {system : System layout}
    (known : Known text key plain system)
    {calls : List (Monitors.Call Evaluation)}
    (fresh : ∀ own ∈ calls.filterMap Monitors.Call.started, own.Fresh key)
    (few : plain.clients.length +
      (calls.filterMap Monitors.Call.started).length ≤ 10)
    (ran : Machine.run (storeStep (evaluations text)) plain calls =
      some final) :
    ∃ last, Known text key final last ∧ final.clients.length =
      plain.clients.length + (calls.filterMap Monitors.Call.started).length := by
  induction calls generalizing plain system with
  | nil =>
      cases ran
      exact ⟨system, known, rfl⟩
  | cons call rest inductionHypothesis =>
      obtain ⟨middle, stepped, restRan⟩ :=
        (Machine.run_cons_eq_some_iff _ _ _ _ _).mp ran
      have parts : (call :: rest).filterMap Monitors.Call.started =
          call.started.toList ++ rest.filterMap Monitors.Call.started := by
        rw [List.filterMap_cons]
        cases call.started <;> rfl
      rw [parts] at fresh few ⊢
      rw [List.length_append] at few ⊢
      have longer := length_of_storeStep stepped
      obtain ⟨action, next, noExpiry, nextStepped, mirrors⟩ :=
        known.mirrors.step (fun own started => fresh own
          (List.mem_append_left _ (Option.mem_toList.mpr started))) stepped
      have ranked := known.ranked.step noExpiry nextStepped
      have before := known.successes_le
      have after : next.successes ≤ middle.clients.length := by
        rw [← ranked.won, mirrors.clients, List.length_map]
        exact List.countP_le_length
      have small {number : Nat} (bounded : number ≤ 10) : number < countBound :=
        Nat.lt_of_le_of_lt bounded (by decide)
      have counting := counting_step system action next known.counting
        (small (by omega)) (small (by omega)) nextStepped
      obtain ⟨last, lastKnown, length⟩ :=
        inductionHypothesis ⟨mirrors, ranked, counting⟩
          (fun own member => fresh own (List.mem_append_right _ member))
          (by omega) restRan
      exact ⟨last, lastKnown, by omega⟩

/-- Of up to ten calls, one that has returned has counted. -/
theorem Known.rank_of_returned
    {text : NumberText}
    {key : WindowKey}
    {plain : StoreSystem layout Evaluation}
    {system : System layout}
    (known : Known text key plain system)
    (few : plain.clients.length ≤ 10)
    {call : Call}
    (member : call ∈ system.calls)
    {outcome : Except EvaluatorError EvaluatorResult}
    (returned : call.progress = .returned outcome) :
    ∃ rank, call.rank = some rank ∧ 1 ≤ rank ∧ rank ≤ system.successes ∧
      outcome = .ok (counted text call.config (countValue rank)) := by
  have sound := (known.counting.sound call member).2
  have behind := known.ranked.behind call member
  unfold Behind at behind
  rw [returned] at sound behind
  rcases sound with ⟨unranked, -⟩ | ⟨rank, ranked, counted⟩
  · -- An unranked call has seen ten successes, each of another call.
    have ten := behind unranked
    have notAll : system.calls.countP (fun other => other.rank.isSome) ≠
        system.calls.length := by
      intro all
      have isSome := List.countP_eq_length.mp all call member
      rw [unranked] at isSome
      cases isSome
    have most := List.countP_le_length
      (p := fun other : Call => other.rank.isSome) (l := system.calls)
    have length : plain.clients.length = system.calls.length := by
      rw [known.mirrors.clients, List.length_map]
    rw [known.ranked.won] at notAll most
    omega
  · refine ⟨rank, ranked, ?_⟩
    have occurs : 0 < system.calls.countP
        (fun other => decide (other.rank = some rank)) :=
      List.countP_pos_iff.mpr ⟨call, member, decide_eq_true ranked⟩
    rw [known.ranked.ranks rank] at occurs
    by_cases inRange : 1 ≤ rank ∧ rank ≤ system.successes
    · exact ⟨inRange.1, inRange.2, counted⟩
    · rw [if_neg inRange] at occurs
      exact absurd occurs (Nat.lt_irrefl 0)

/-- When all calls have returned, their ranks are the numbers up to their
number. -/
theorem Ranked.perm_ranks
    {key : WindowKey}
    {system : System layout}
    (ranked : Ranked key system)
    (all : ∀ call ∈ system.calls, call.rank.isSome = true) :
    system.successes = system.calls.length ∧
      (system.calls.map fun call => call.rank.getD 0).Perm
        (List.range' 1 system.calls.length) := by
  have everyone : system.successes = system.calls.length := by
    rw [← ranked.won]
    exact List.countP_eq_length.mpr all
  refine ⟨everyone, List.perm_iff_count.mpr fun rank => ?_⟩
  have counted : (system.calls.map fun call => call.rank.getD 0).count rank =
      system.calls.countP (fun call => decide (call.rank = some rank)) := by
    rw [List.count, List.countP_map]
    refine List.countP_congr fun call member => ?_
    obtain ⟨own, isOwn⟩ := Option.isSome_iff_exists.mp (all call member)
    simp [isOwn]
  have distinct : (List.range' 1 system.calls.length).Nodup := List.nodup_range'
  rw [counted, ranked.ranks rank, everyone, distinct.count]
  refine if_congr ?_ rfl rfl
  rw [List.mem_range'_1]
  omega

/-- A thread whose call has returned has nothing to leave. -/
theorem settled_of_returned
    {text : NumberText}
    {thread : Evaluation × Monitors.Phase Operation Result Section}
    {outcome : Except EvaluatorError EvaluatorResult}
    (returned : thread.1.progress = .returned outcome) :
    Monitors.settled (evaluations text) thread = thread.1 := by
  obtain ⟨own, phase⟩ := thread
  cases phase with
  | outside => rfl
  | inside operation here => rfl
  | leaving operation result =>
      simp only [Monitors.settled, evaluations]
      rw [show own.progress = _ from returned]

section Final

variable {text : NumberText} {key : WindowKey}
variable {final : Monitors.Locked (Fin layout.numShards.toNat) ShardData
  Evaluation Operation Result Section}
variable {plain : StoreSystem layout Evaluation}

/-- When all calls have returned, the parts are those of the plain store. -/
theorem data_of_all_returned
    (shows : Monitors.Shows (evaluations text) (meaning layout) final
      ⟨plain.store.shards, plain.clients⟩)
    (hold : Monitors.OwnersHold (sections layout) final)
    (all : ∀ thread ∈ final.threads, ∃ outcome,
      thread.1.progress = .returned outcome) :
    final.data = plain.store.shards := by
  funext shard
  cases owned : final.owner shard with
  | none => exact shows.free shard owned
  | some index =>
      obtain ⟨⟨own, phase⟩, present, holds⟩ := hold shard index owned
      have tracks := shows.tracks index _ present
      obtain ⟨outcome, returned⟩ := all _ (List.mem_of_getElem? present)
      cases phase with
      | outside => exact holds.elim
      | inside operation here =>
          have requested : (evaluations text).request own = some operation :=
            tracks.2.1
          simp only [evaluations] at requested
          rw [show own.progress = _ from returned] at requested
          cases requested
      | leaving operation result =>
          obtain ⟨-, same⟩ := tracks
          rw [← show (sections layout).lockOf operation = shard from holds]
          exact same

/-- Up to ten calls of `evaluate` on one window all count, for every number of
shards, all thresholds, and every interleaving of their steps around the mutexes
of the store: none of those that have returned reports contention, and when all
have returned, the stored value is their number, and their results are those of
the counts from one to this number, each of them once. -/
theorem ten_evaluations_all_count
    {actions : List (Monitors.Action Evaluation)}
    (fresh : ∀ own ∈ actions.filterMap Monitors.Action.started,
      own.progress = .reading 0 ∧ windowKey own.config own.event = key)
    (few : (actions.filterMap Monitors.Action.started).length ≤ 10)
    (ran : Machine.run (lockedStep (evaluations text) layout) (initial layout)
      actions = some final) :
    (∀ thread ∈ final.threads, ∀ outcome,
      thread.1.progress = .returned outcome →
        ∃ count, 1 ≤ count ∧ count ≤ final.threads.length ∧
          outcome = .ok (counted text thread.1.config (countValue count))) ∧
      ((∀ thread ∈ final.threads, ∃ outcome,
        thread.1.progress = .returned outcome) →
          (InProcessWindowStore.mk final.data).get key =
            countValue final.threads.length ∧
          ∃ counts : List Nat,
            counts.Perm (List.range' 1 final.threads.length) ∧
            List.Forall₂ (fun thread count => thread.1.progress =
              .returned (.ok (counted text thread.1.config (countValue count))))
              final.threads counts) := by
  obtain ⟨calls, plain, plainRan, started, shows⟩ :=
    exists_plain_run_at_end (evaluations text) ran
  have start : Known text key ⟨.empty layout, []⟩ (System.initial layout) :=
    ⟨⟨rfl, rfl⟩, ranked_initial key, counting_initial text key⟩
  obtain ⟨system, known, length⟩ := start.run (started ▸ fresh)
    (by rw [started]; simpa using few) plainRan
  have atMostTen : plain.clients.length ≤ 10 := by
    rw [length, started]
    simpa using few
  have clients : final.threads.map (Monitors.settled (evaluations text)) =
      system.calls.map ofCall := shows.clients.symm.trans known.mirrors.clients
  have sameLength : final.threads.length = system.calls.length := by
    simpa using congrArg List.length clients
  have successes := known.successes_le
  rw [known.mirrors.clients, List.length_map, ← sameLength] at successes
  constructor
  · intro thread member outcome returned
    have settled : Monitors.settled (evaluations text) thread = thread.1 :=
      settled_of_returned returned
    have isCall : thread.1 ∈ system.calls.map ofCall := by
      rw [← clients, ← settled]
      exact List.mem_map_of_mem member
    obtain ⟨call, callMember, same⟩ := List.mem_map.mp isCall
    rw [← same] at returned ⊢
    obtain ⟨rank, -, positive, atMost, counted⟩ :=
      known.rank_of_returned atMostTen callMember returned
    exact ⟨rank, positive, by omega, counted⟩
  · intro all
    have hold := Monitors.ownersHold_of_run ran
    have counted : ∀ call ∈ system.calls, ∀ outcome,
        call.progress = .returned outcome → ∃ rank, call.rank = some rank ∧
          outcome = .ok (counted text call.config (countValue rank)) := by
      intro call member outcome returned
      obtain ⟨rank, ranked, -, -, result⟩ :=
        known.rank_of_returned atMostTen member returned
      exact ⟨rank, ranked, result⟩
    have pairs : List.Forall₂ Eq
        (final.threads.map (Monitors.settled (evaluations text)))
        (system.calls.map ofCall) := by
      rw [List.forall₂_eq_eq_eq]
      exact clients
    rw [List.forall₂_map_left_iff, List.forall₂_map_right_iff] at pairs
    have returned : ∀ call ∈ system.calls, call.rank.isSome = true := by
      intro call member
      have isThread : ofCall call ∈ system.calls.map ofCall :=
        List.mem_map_of_mem member
      rw [← clients] at isThread
      obtain ⟨thread, threadMember, same⟩ := List.mem_map.mp isThread
      obtain ⟨outcome, threadReturned⟩ := all thread threadMember
      rw [settled_of_returned threadReturned] at same
      obtain ⟨rank, ranked, -⟩ := counted call member outcome
        ((congrArg Evaluation.progress same).symm.trans threadReturned)
      exact Option.isSome_iff_exists.mpr ⟨rank, ranked⟩
    obtain ⟨everyone, perm⟩ := known.ranked.perm_ranks returned
    refine ⟨?_, system.calls.map fun call => call.rank.getD 0, ?_, ?_⟩
    · rw [data_of_all_returned shows hold all, sameLength, ← everyone,
        ← known.counting.stored, ← known.mirrors.store]
    · rw [sameLength]
      exact perm
    · rw [List.forall₂_map_right_iff]
      have threads := (List.forall₂_and_left _ _).mpr ⟨all, pairs⟩
      have both := (List.forall₂_and_left _ _).mpr
        ⟨counted, List.Forall₂.flip (R := fun call thread => _ ∧ _) threads⟩
      refine List.Forall₂.flip (both.imp ?_)
      rintro call thread ⟨callCounted, ⟨outcome, threadReturned⟩, same⟩
      rw [settled_of_returned threadReturned] at same
      obtain ⟨rank, ranked, rfl⟩ := callCounted outcome
        ((congrArg Evaluation.progress same).symm.trans threadReturned)
      rw [same] at threadReturned
      simp only [flip, ranked, Option.getD_some, same]
      exact threadReturned

end Final

/-- The call has returned. -/
def Evaluation.hasReturned (own : Evaluation) : Bool :=
  match own.progress with
  | .returned _ => true
  | _ => false

theorem exists_of_hasReturned
    {own : Evaluation}
    (returned : own.hasReturned = true) :
    ∃ outcome, own.progress = .returned outcome := by
  unfold Evaluation.hasReturned at returned
  split at returned
  next outcome progress => exact ⟨outcome, progress⟩
  next => cases returned

/-- The window of `acme` and `alice`. -/
def aliceKey : WindowKey := ⟨"acme", "alice", "default", 0⟩

/-- A text for numbers that is not looked at. -/
def noText : NumberText := ⟨fun _ => "", fun _ => 0⟩

/-- A call of `evaluate` with a threshold. -/
def evaluationOver (threshold : Double) : Evaluation where
  config := { threshold := threshold }
  event := { tenantId := "acme", entityId := "alice" }

/-- The steps of one thread in a section. -/
def sectionOf (index steps : Nat) : List (Monitors.Action Evaluation) :=
  .lock index :: (List.replicate steps (.work index) ++ [.unlock index])

/-- Two calls read the same value; the second loses its first swap. -/
def lostSwap : List (Monitors.Action Evaluation) :=
  [.start (evaluationOver (.finite 0)), .start (evaluationOver (.finite 1))] ++
    sectionOf 0 1 ++ sectionOf 1 1 ++ sectionOf 0 4 ++ sectionOf 1 2 ++
    sectionOf 1 1 ++ sectionOf 1 4

/-- The run of these steps. -/
def lostSwapRun := Machine.run (lockedStep (evaluations noText) oneShard)
  (initial oneShard) lostSwap

theorem isSome_lostSwapRun : lostSwapRun.isSome = true := by decide +kernel

/-- Both count. -/
theorem ten_evaluations_all_count_lostSwap :
    ∃ final, lostSwapRun = some final ∧
      (InProcessWindowStore.mk final.data).get aliceKey = countValue 2 := by
  have fresh : ∀ own ∈ lostSwap.filterMap Monitors.Action.started,
      own.progress = .reading 0 ∧
        windowKey own.config own.event = aliceKey := by
    decide +kernel
  have returned : ∀ thread ∈ (lostSwapRun.get isSome_lostSwapRun).threads,
      thread.1.hasReturned = true := by
    decide +kernel
  have two : (lostSwapRun.get isSome_lostSwapRun).threads.length = 2 := by decide +kernel
  have ran := (Option.some_get isSome_lostSwapRun).symm
  have all := (ten_evaluations_all_count fresh (by decide +kernel) ran).2
    fun thread member => exists_of_hasReturned (returned thread member)
  refine ⟨_, ran, ?_⟩
  rw [← two]
  exact all.1

end LockedCounting
end Evaluator
end Fre
