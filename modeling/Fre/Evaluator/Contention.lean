import Fre.Evaluator.ThresholdEvaluator
import Fre.Foundation.Machine
import Fre.Foundation.Threads

/-!
# Threshold counting under contention

Any number of `evaluate` calls on one window key, each taking its reads and
swaps in any order with the others, together with calls of `expire`.  A swap
compares versions only, and `expire` starts them again from zero, so a swap may
succeed with a value read before the expiry.  It does no harm: every value ever
read at the key is a count with its own number as version, so equal versions
mean equal values.
-/

namespace Fre
namespace Evaluator
namespace Contention

open Foundation State ThresholdEvaluator

/-- One call of `evaluate`.  `rank` is the number, counted from the last
expiry, of the swap that succeeded for it. -/
structure Call where
  config : ThresholdEvaluatorConfig
  event : Event
  progress : Progress := .reading 0
  rank : Option Nat := none

/-- The store, the calls in order of invocation, and the number of successful
swaps since the last expiry. -/
structure System (layout : StoreLayout) where
  store : InProcessWindowStore layout
  calls : List Call
  successes : Nat

/-- What can happen next. -/
inductive Action
  | invoke (config : ThresholdEvaluatorConfig) (event : Event)
  | advance (index : Nat)
  | expire

variable {layout : StoreLayout}

/-- An empty store and no call. -/
def System.initial (layout : StoreLayout) : System layout where
  store := .empty layout
  calls := []
  successes := 0

/-- The next store call of this call is a swap that succeeds. -/
def Call.wins (call : Call) (store : InProcessWindowStore layout) : Bool :=
  match call.progress with
  | .swapping _ current =>
      (store.compareAndSwap (windowKey call.config call.event) current
        (updated call.config current)).1
  | _ => false

/-- The call has returned. -/
def Call.hasReturned (call : Call) : Bool :=
  match call.progress with
  | .returned _ => true
  | _ => false

/-- One step of the system around the window key `key`. -/
def step (text : NumberText) (key : WindowKey) (system : System layout) :
    Action → Option (System layout)
  | .invoke config event =>
      if windowKey config event = key then
        some { system with
          calls := system.calls ++ [{ config := config, event := event }] }
      else none
  | .advance index =>
      match system.calls[index]? with
      | none => none
      | some call =>
          if call.hasReturned then none
          else
            let reached := ThresholdEvaluator.advance text call.config
              call.event call.progress system.store
            let successes :=
              if call.wins system.store then system.successes + 1
              else system.successes
            some {
              store := reached.2
              calls := system.calls.set index { call with
                progress := reached.1
                rank :=
                  if call.wins system.store then some successes
                  else call.rank }
              successes := successes }
  | .expire =>
      some { system with
        store := (system.store.expire key).2
        successes := 0 }

/-! ## What one step of a call does -/

/-- The three things a step of a call can do: read, swap, or lose the swap. -/
theorem step_advance_cases
    {text : NumberText}
    {key : WindowKey}
    {system next : System layout}
    {index : Nat}
    (stepped : step text key system (.advance index) = some next) :
    ∃ call, system.calls[index]? = some call ∧
      ((∃ attempts, call.progress = .reading attempts ∧
          next = { system with
            calls := system.calls.set index { call with
              progress := .swapping attempts
                (system.store.get (windowKey call.config call.event)) } }) ∨
        (∃ attempts current, call.progress = .swapping attempts current ∧
          (system.store.get (windowKey call.config call.event)).version =
            current.version ∧
          next = {
            store := (system.store.compareAndSwap
              (windowKey call.config call.event) current
              (updated call.config current)).2
            calls := system.calls.set index { call with
              progress := .returned
                (.ok (counted text call.config (updated call.config current)))
              rank := some (system.successes + 1) }
            successes := system.successes + 1 }) ∨
        ∃ attempts current progress,
          call.progress = .swapping attempts current ∧
          (progress = .reading (attempts + 1) ∨
            progress = .returned (.ok contention)) ∧
          next = { system with
            calls := system.calls.set index
              { call with progress := progress } }) := by
  simp only [step] at stepped
  split at stepped
  · cases stepped
  · next call present =>
      refine ⟨call, present, ?_⟩
      split at stepped
      · cases stepped
      · next running =>
          rw [Option.some.injEq] at stepped
          subst stepped
          cases progress : call.progress with
          | reading attempts =>
              refine .inl ⟨attempts, rfl, ?_⟩
              simp [Call.wins, progress, ThresholdEvaluator.advance,
                StateStore.get]
          | swapping attempts current =>
              obtain ⟨success, -⟩ := system.store.compareAndSwap_eq
                (windowKey call.config call.event) current
                (updated call.config current)
              by_cases matching :
                  (system.store.get
                    (windowKey call.config call.event)).version =
                      current.version
              · rw [decide_eq_true matching] at success
                refine .inr (.inl ⟨attempts, current, rfl, matching, ?_⟩)
                simp [Call.wins, progress, ThresholdEvaluator.advance,
                  StateStore.compareAndSwap, success]
              · rw [decide_eq_false matching] at success
                have unchanged := InProcessWindowStore.compareAndSwap_of_ne
                  system.store matching (updated call.config current)
                refine .inr (.inr ⟨attempts, current,
                  if attempts + 1 < 10 then .reading (attempts + 1)
                  else .returned (.ok contention), rfl, ?_, ?_⟩)
                · split
                  · exact .inl rfl
                  · exact .inr rfl
                · simp only [Call.wins, progress, ThresholdEvaluator.advance,
                    StateStore.compareAndSwap, unchanged]
                  split
                  · rfl
                  · rfl
          | returned outcome =>
              simp [Call.hasReturned, progress] at running

/-! ## Counts -/

/-- The value that stands for a count. -/
def countValue (count : Nat) : WindowValue where
  aggregate := .finite count
  version := UInt64.ofNat count

/-- The largest count a double holds exactly, plus one. -/
def countBound : Nat := 2 ^ 53

theorem countValue_zero : countValue 0 = {} := by
  simp [countValue]

theorem toNat_countValue_version
    {count : Nat}
    (small : count < countBound) :
    (countValue count).version.toNat = count :=
  UInt64.toNat_ofNat_of_lt' (lt_trans small (by decide))

theorem countValue_eq_of_version_eq
    {first second : Nat}
    (firstSmall : first < countBound)
    (secondSmall : second < countBound)
    (same : (countValue first).version = (countValue second).version) :
    first = second := by
  rw [← toNat_countValue_version firstSmall, same,
    toNat_countValue_version secondSmall]

/-- An attempt that read a count writes the next one. -/
theorem updated_countValue
    (config : ThresholdEvaluatorConfig)
    {count : Nat}
    (small : count + 1 < countBound) :
    updated config (countValue count) = countValue (count + 1) := by
  have exact : (countValue count).aggregate.add .binary64 (.finite 1) =
      (countValue (count + 1)).aggregate :=
    FloatValue.add_one_natCast .binary64 small
  have aggregate : aggregateValue config (countValue count).aggregate =
      (countValue (count + 1)).aggregate := by
    unfold aggregateValue
    split
    · exact exact
    · exact exact
    · exact exact
  have version : (countValue count).version + 1 =
      (countValue (count + 1)).version :=
    (UInt64.ofNat_add count 1).symm
  rw [updated, aggregate, version]

/-! ## The invariant -/

/-- What is known of a call: a value it has read is a count, and what it
returned follows from the rank of its swap. -/
def Call.Sound (text : NumberText) (key : WindowKey) (call : Call) : Prop :=
  windowKey call.config call.event = key ∧
    match call.progress with
    | .reading _ => call.rank = none
    | .swapping _ current =>
        call.rank = none ∧
          ∃ count, count < countBound ∧ current = countValue count
    | .returned outcome =>
        (call.rank = none ∧ outcome = .ok contention) ∨
          ∃ rank, call.rank = some rank ∧
            outcome = .ok (counted text call.config (countValue rank))

/-- The stored value is the number of successes since the last expiry. -/
structure Counting
    (text : NumberText)
    (key : WindowKey)
    (system : System layout) : Prop where
  stored : system.store.get key = countValue system.successes
  sound : ∀ call ∈ system.calls, call.Sound text key

theorem counting_initial (text : NumberText) (key : WindowKey) :
    Counting text key (System.initial layout) where
  stored := by
    rw [InProcessWindowStore.get_eq_read]
    simp [System.initial, VersionedMap.read, countValue_zero]
  sound := by simp [System.initial]

/-- One step keeps the invariant while counts are exact. -/
theorem counting_step
    {text : NumberText}
    {key : WindowKey}
    (system : System layout)
    (action : Action)
    (next : System layout)
    (counting : Counting text key system)
    (small : system.successes < countBound)
    (nextSmall : next.successes < countBound)
    (stepped : step text key system action = some next) :
    Counting text key next := by
  obtain ⟨stored, sound⟩ := counting
  cases action with
  | invoke config event =>
      simp only [step] at stepped
      split at stepped
      · next matching =>
          cases stepped
          exact ⟨stored, Threads.forall_mem_concat sound ⟨matching, rfl⟩⟩
      · cases stepped
  | advance index =>
      obtain ⟨call, present, happened⟩ := step_advance_cases stepped
      obtain ⟨matching, known⟩ := sound call (List.mem_of_getElem? present)
      subst key
      rcases happened with ⟨attempts, progress, rfl⟩ |
        ⟨attempts, current, progress, sameVersion, rfl⟩ |
        ⟨attempts, current, after, progress, afterCases, rfl⟩
      · rw [progress] at known
        refine ⟨stored, Threads.forall_mem_set sound ⟨rfl, known, ?_⟩⟩
        exact ⟨system.successes, small, stored⟩
      · rw [progress] at known
        obtain ⟨-, count, countSmall, rfl⟩ := known
        have sameCount : system.successes = count := by
          rw [stored] at sameVersion
          exact countValue_eq_of_version_eq small countSmall sameVersion
        subst count
        have written := updated_countValue call.config nextSmall
        refine ⟨?_, Threads.forall_mem_set sound
          ⟨rfl, .inr ⟨system.successes + 1, rfl, ?_⟩⟩⟩
        · rw [← written]
          exact InProcessWindowStore.get_compareAndSwap _ sameVersion _
        · rw [written]
      · rw [progress] at known
        refine ⟨stored, Threads.forall_mem_set sound ⟨rfl, ?_⟩⟩
        rcases afterCases with rfl | rfl
        · exact known.1
        · exact .inl ⟨known.1, rfl⟩
  | expire =>
      cases stepped
      refine ⟨?_, sound⟩
      rw [countValue_zero]
      exact InProcessWindowStore.get_expire _ _

/-- A call that has returned is not touched again. -/
theorem returned_step
    {text : NumberText}
    {key : WindowKey}
    {index : Nat}
    {call : Call}
    (returned : call.hasReturned = true)
    (system : System layout)
    (action : Action)
    (next : System layout)
    (present : system.calls[index]? = some call)
    (stepped : step text key system action = some next) :
    next.calls[index]? = some call := by
  have inRange : index < system.calls.length :=
    (List.getElem?_eq_some_iff.1 present).1
  cases action with
  | invoke config event =>
      simp only [step] at stepped
      split at stepped
      · cases stepped
        rw [← present]
        exact List.getElem?_append_left inRange
      · cases stepped
  | advance other =>
      simp only [step] at stepped
      split at stepped
      · cases stepped
      · next otherCall otherPresent =>
          split at stepped
          · cases stepped
          · next running =>
              have different : other ≠ index := by
                rintro rfl
                rw [present, Option.some.injEq] at otherPresent
                exact running (otherPresent ▸ returned)
              cases stepped
              rw [← present]
              exact List.getElem?_set_ne different
  | expire =>
      cases stepped
      exact present

/-- A step of a call that changes the store makes the call return its
count. -/
theorem returned_counted_of_store_ne
    {text : NumberText}
    {key : WindowKey}
    {system next : System layout}
    {index : Nat}
    (stepped : step text key system (.advance index) = some next)
    (changed : next.store ≠ system.store) :
    ∃ call, next.calls[index]? = some call ∧
      ∃ written, call.progress =
        .returned (.ok (counted text call.config written)) := by
  obtain ⟨call, present, happened⟩ := step_advance_cases stepped
  have inRange : index < system.calls.length :=
    (List.getElem?_eq_some_iff.1 present).1
  rcases happened with ⟨attempts, progress, rfl⟩ |
    ⟨attempts, current, progress, sameVersion, rfl⟩ |
    ⟨attempts, current, after, progress, afterCases, rfl⟩
  · exact absurd rfl changed
  · exact ⟨_, List.getElem?_set_self inRange, _, rfl⟩
  · exact absurd rfl changed

/-- Counting is exact.  After every run in which the counts stay below
`2 ^ 53`, the stored aggregate is the stored version and the number of
successes since the last expiry; a call whose swap was success number `rank`
has returned a flag exactly if its threshold is below `rank`; every other
returned call reports contention, and no step of such a call has changed the
store. -/
theorem counting_exact
    (layout : StoreLayout)
    (text : NumberText)
    (key : WindowKey)
    (actions : List Action)
    (final : System layout)
    (countsExact : Machine.Throughout (step text key)
      (fun system => system.successes < 2 ^ 53) (System.initial layout)
      actions)
    (ran : Machine.run (step text key) (System.initial layout) actions =
      some final) :
    ((final.store.get key).aggregate =
        .finite ((final.store.get key).version.toNat : ℚ) ∧
      (final.store.get key).version.toNat = final.successes) ∧
    (∀ call ∈ final.calls, ∀ outcome, call.progress = .returned outcome →
      ∃ result, outcome = .ok result ∧
        ((∃ rank, call.rank = some rank ∧
            result.reasonCode ≠ some "cas_contention" ∧
            (result.verdict = .flag ↔
              call.config.threshold.lt (.finite rank) = true)) ∨
          (call.rank = none ∧ result.reasonCode = some "cas_contention"))) ∧
    (∀ before index after system next call result,
      actions = before ++ .advance index :: after →
      Machine.run (step text key) (System.initial layout) before =
        some system →
      step text key system (.advance index) = some next →
      final.calls[index]? = some call →
      call.progress = .returned (.ok result) →
      result.reasonCode = some "cas_contention" →
      next.store = system.store) := by
  obtain ⟨stored, sound⟩ : Counting text key final :=
    Machine.invariant_of_throughout
      (fun system action next counting small nextSmall stepped =>
        counting_step system action next counting small nextSmall stepped)
      (counting_initial text key) countsExact ran
  refine ⟨?_, ?_, ?_⟩
  · have small : final.successes < countBound :=
      countsExact.holds_at_end ran
    rw [stored, toNat_countValue_version small]
    exact ⟨rfl, rfl⟩
  · intro call member outcome returned
    obtain ⟨-, known⟩ := sound call member
    rw [returned] at known
    rcases known with ⟨unranked, rfl⟩ | ⟨rank, ranked, rfl⟩
    · exact ⟨_, rfl, .inr ⟨unranked, rfl⟩⟩
    · refine ⟨_, rfl, .inl ⟨rank, ranked, ?_, ?_⟩⟩
      · exact counted_ne_contention text call.config (countValue rank)
      · exact counted_verdict_eq_flag_iff text call.config (countValue rank)
  · intro before index after system next call result split beforeRan stepped
      present returned contended
    by_contra changed
    obtain ⟨winner, winnerPresent, written, winnerReturned⟩ :=
      returned_counted_of_store_ne stepped changed
    subst split
    obtain ⟨middle, middleRan, restRan⟩ :=
      (Machine.run_append_eq_some_iff _ _ _ _ _).1 ran
    rw [beforeRan, Option.some.injEq] at middleRan
    subst middle
    obtain ⟨afterStep, afterStepped, afterRan⟩ :=
      (Machine.run_cons_eq_some_iff _ _ _ _ _).1 restRan
    rw [stepped, Option.some.injEq] at afterStepped
    subst afterStep
    have kept : final.calls[index]? = some winner :=
      Machine.invariant_of_run
        (returned_step (by simp [Call.hasReturned, winnerReturned]))
        winnerPresent afterRan
    rw [present, Option.some.injEq] at kept
    subst kept
    rw [winnerReturned, Progress.returned.injEq, Except.ok.injEq] at returned
    subst returned
    exact counted_ne_contention text call.config written contended

/-- Two calls with thresholds 0 and 1 race for the first count; the loser
takes the second. -/
def raceForFirstCount : List Action :=
  [.invoke { threshold := .finite 0 }
      { tenantId := "acme", entityId := "alice" },
    .invoke { threshold := .finite 1 }
      { tenantId := "acme", entityId := "alice" },
    .advance 0, .advance 1, .advance 1, .advance 0, .advance 0, .advance 0]

/-- The verdict that a call has returned. -/
def Call.verdict (call : Call) : Option Verdict :=
  match call.progress with
  | .returned (.ok result) => some result.verdict
  | _ => none

/-- Both calls count: the loser of the race has exceeded its threshold with the
second count, the winner has not with the first. -/
theorem counting_exact_race :
    ∃ final : System ⟨fun _ => 0, 1, by decide⟩,
      Machine.run
          (step ⟨fun _ => "", fun _ => 0⟩ ⟨"acme", "alice", "default", 0⟩)
          (System.initial _) raceForFirstCount = some final ∧
        (final.store.get ⟨"acme", "alice", "default", 0⟩).version.toNat =
          final.successes ∧
        final.successes = 2 ∧
        final.calls.map Call.rank = [some 2, some 1] ∧
        final.calls.map Call.verdict = [some .flag, some .pass] := by
  refine ⟨_, (Option.some_get (by decide +kernel)).symm, ?_, by decide +kernel,
    by decide +kernel, by decide +kernel⟩
  exact (counting_exact ⟨fun _ => 0, 1, by decide⟩
    ⟨fun _ => "", fun _ => 0⟩ ⟨"acme", "alice", "default", 0⟩
    raceForFirstCount _ (by decide +kernel)
    (Option.some_get (by decide +kernel)).symm).1.2

end Contention
end Evaluator
end Fre
