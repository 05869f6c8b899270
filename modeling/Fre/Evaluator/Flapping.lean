import Fre.Evaluator.Contention
import Fre.State.ExternalWindowStore

/-!
# Threshold counting over a flapping backend

The calls of `evaluate` on one window key over an `ExternalWindowStore` whose
backend comes and goes between any two store calls.  A value read from one
store may be swapped into the other when the versions coincide.  As under
contention this does no harm: in both stores a value is a count with its own
number as version, so equal versions mean equal values, wherever they were
read.
-/

namespace Fre
namespace Evaluator
namespace Flapping

open Foundation State ThresholdEvaluator Contention

/-- One call of `evaluate`. -/
structure Call where
  config : ThresholdEvaluatorConfig
  event : Event
  progress : Progress := .reading 0

/-- What the history records: which call swapped into which store, and which
store expired the key. -/
inductive Mark
  | swapped (tier : Tier) (index : Nat)
  | expired (tier : Tier)
  deriving DecidableEq, Repr

/-- The store, the calls in order of invocation, and the history, latest mark
first. -/
structure System (β : Type) (layout : StoreLayout) where
  store : ExternalWindowStore β layout
  calls : List Call
  history : List Mark

/-- What can happen next. -/
inductive Action
  | invoke (config : ThresholdEvaluatorConfig) (event : Event)
  | advance (index : Nat)
  | expire
  | available (answer : Bool)

/-- The successful swaps into a store since it last expired the key. -/
def sinceExpiry (tier : Tier) : List Mark → Nat
  | [] => 0
  | .swapped other _ :: earlier =>
      if other = tier then sinceExpiry tier earlier + 1
      else sinceExpiry tier earlier
  | .expired other :: earlier =>
      if other = tier then 0 else sinceExpiry tier earlier

/-- The successful swaps of a call, into either store. -/
def swapsOf (index : Nat) (history : List Mark) : Nat :=
  history.countP fun mark =>
    match mark with
    | .swapped _ other => other = index
    | .expired _ => false

/-- The call has returned. -/
def Call.hasReturned (call : Call) : Bool :=
  match call.progress with
  | .returned _ => true
  | _ => false

/-- The call has returned a count. -/
def Call.hasCounted (call : Call) : Bool :=
  match call.progress with
  | .returned (.ok result) => result.reasonCode ≠ some "cas_contention"
  | _ => false

variable {β : Type} {layout : StoreLayout}

/-- Counts below the bound in both stores. -/
def SmallCounts (system : System β layout) : Prop :=
  sinceExpiry .backend system.history < 2 ^ 53 ∧
    sinceExpiry .fallback system.history < 2 ^ 53

instance (system : System β layout) : Decidable (SmallCounts system) :=
  inferInstanceAs (Decidable (_ ∧ _))

theorem SmallCounts.at
    {system : System β layout}
    (small : SmallCounts system)
    (tier : Tier) :
    sinceExpiry tier system.history < countBound := by
  cases tier with
  | backend => exact small.1
  | fallback => exact small.2

variable [StateStore β]

/-- An empty fallback, a backend, and no call. -/
def System.initial
    (layout : StoreLayout)
    (backend : β)
    (available : Bool) : System β layout where
  store := { backend, fallback := .empty layout, available }
  calls := []
  history := []

/-- The next store call of this call is a swap that succeeds. -/
def Call.wins (call : Call) (store : ExternalWindowStore β layout) : Bool :=
  match call.progress with
  | .swapping _ current =>
      match (StateStore.compareAndSwap store
          (windowKey call.config call.event) current
          (updated call.config current)).1 with
      | .ok swapped => swapped
      | .error _ => false
  | _ => false

/-- One step of the system around the window key `key`. -/
def step (text : NumberText) (key : WindowKey) (system : System β layout) :
    Action → Option (System β layout)
  | .invoke config event =>
      if windowKey config event = key then
        some { system with
          calls := system.calls ++ [{ config := config, event := event }] }
      else none
  | .advance index =>
      match system.calls[index]? with
      | none => none
      | some call =>
          if call.hasReturned then none
          else
            let reached := ThresholdEvaluator.advance text call.config
              call.event call.progress system.store
            some {
              store := reached.2
              calls := system.calls.set index
                { call with progress := reached.1 }
              history :=
                if call.wins system.store then
                  .swapped system.store.tier index :: system.history
                else system.history }
  | .expire =>
      some { system with
        store := (StateStore.expire system.store key).2
        history := .expired system.store.tier :: system.history }
  | .available answer =>
      some { system with store := { system.store with available := answer } }

/-! ## What one step of a call does -/

variable [VersionChecked β]

/-- The three things a step of a call can do: read, swap, or lose the swap. -/
theorem step_advance_cases
    {text : NumberText}
    {key : WindowKey}
    {system next : System β layout}
    {index : Nat}
    (stepped : step text key system (.advance index) = some next) :
    ∃ call, system.calls[index]? = some call ∧
      ((∃ attempts, call.progress = .reading attempts ∧
          next = { system with
            calls := system.calls.set index { call with
              progress := .swapping attempts (system.store.valueAt
                (windowKey call.config call.event) system.store.tier) } }) ∨
        (∃ attempts current store, call.progress = .swapping attempts current ∧
          (system.store.valueAt (windowKey call.config call.event)
            system.store.tier).version = current.version ∧
          store.valueAt (windowKey call.config call.event) =
            Function.update
              (system.store.valueAt (windowKey call.config call.event))
              system.store.tier (updated call.config current) ∧
          next = {
            store
            calls := system.calls.set index { call with
              progress := .returned
                (.ok (counted text call.config (updated call.config current))) }
            history := .swapped system.store.tier index :: system.history }) ∨
        ∃ attempts current progress store,
          call.progress = .swapping attempts current ∧
          (progress = .reading (attempts + 1) ∨
            progress = .returned (.ok contention)) ∧
          store.valueAt (windowKey call.config call.event) =
            system.store.valueAt (windowKey call.config call.event) ∧
          next = { system with
            store
            calls := system.calls.set index
              { call with progress := progress } }) := by
  simp only [step] at stepped
  split at stepped
  · cases stepped
  · next call present =>
      refine ⟨call, present, ?_⟩
      split at stepped
      · cases stepped
      · next running =>
          rw [Option.some.injEq] at stepped
          subst stepped
          cases progress : call.progress with
          | reading attempts =>
              refine .inl ⟨attempts, rfl, ?_⟩
              simp [Call.wins, progress, ThresholdEvaluator.advance,
                system.store.get_eq]
          | swapping attempts current =>
              by_cases matching :
                  (system.store.valueAt (windowKey call.config call.event)
                    system.store.tier).version = current.version
              · obtain ⟨store, swapped, written⟩ :=
                  system.store.swap_matching matching
                    (updated call.config current)
                refine .inr (.inl ⟨attempts, current, store, rfl, matching,
                  written, ?_⟩)
                simp [Call.wins, progress, ThresholdEvaluator.advance, swapped]
              · obtain ⟨store, swapped, kept⟩ :=
                  system.store.swap_differs matching
                    (updated call.config current)
                refine .inr (.inr ⟨attempts, current,
                  if attempts + 1 < 10 then .reading (attempts + 1)
                  else .returned (.ok contention), store, rfl, ?_, kept, ?_⟩)
                · split
                  · exact .inl rfl
                  · exact .inr rfl
                · simp only [Call.wins, progress, ThresholdEvaluator.advance,
                    swapped, Bool.false_eq_true, if_false]
                  split
                  · rfl
                  · rfl
          | returned outcome =>
              simp [Call.hasReturned, progress] at running

/-! ## The invariant -/

/-- What is known of a call: a value it has read, from whichever store, is a
count. -/
def Call.Sound (key : WindowKey) (call : Call) : Prop :=
  windowKey call.config call.event = key ∧
    ∀ attempts current, call.progress = .swapping attempts current →
      ∃ count, count < countBound ∧ current = countValue count

/-- Whether the call at an index has returned a count. -/
def countedAt (calls : List Call) (index : Nat) : Bool :=
  (calls[index]?).any Call.hasCounted

theorem countedAt_set
    {calls : List Call}
    {index : Nat}
    {call new : Call}
    (present : calls[index]? = some call)
    (other : Nat) :
    countedAt (calls.set index new) other =
      if other = index then new.hasCounted else countedAt calls other := by
  have inRange := (List.getElem?_eq_some_iff.1 present).1
  unfold countedAt
  split
  · next same =>
      subst other
      rw [List.getElem?_set_self inRange]
      rfl
  · next different => rw [List.getElem?_set_ne (Ne.symm different)]

theorem countedAt_set_of_eq
    {calls : List Call}
    {index : Nat}
    {call new : Call}
    (present : calls[index]? = some call)
    (same : new.hasCounted = call.hasCounted)
    (other : Nat) :
    countedAt (calls.set index new) other = countedAt calls other := by
  rw [countedAt_set present, same]
  split
  · next here =>
      subst other
      rw [countedAt, present]
      rfl
  · rfl

theorem countedAt_append
    (calls : List Call)
    {new : Call}
    (notCounted : new.hasCounted = false)
    (index : Nat) :
    countedAt (calls ++ [new]) index = countedAt calls index := by
  unfold countedAt
  by_cases inRange : index < calls.length
  · rw [List.getElem?_append_left inRange]
  · rw [List.getElem?_append_right (by omega),
      List.getElem?_eq_none (by omega : calls.length ≤ index)]
    cases index - calls.length with
    | zero => exact notCounted
    | succ beyond => rfl

/-- Both stores hold the number of their successes since they last expired the
key, and each call has swapped once if it has returned a count and never
otherwise. -/
structure Conserving (key : WindowKey) (system : System β layout) : Prop where
  stored : ∀ tier, system.store.valueAt key tier =
    countValue (sinceExpiry tier system.history)
  sound : ∀ call ∈ system.calls, call.Sound key
  once : ∀ index, swapsOf index system.history =
    (countedAt system.calls index).toNat

theorem swapsOf_swapped (tier : Tier) (index other : Nat)
    (history : List Mark) :
    swapsOf other (.swapped tier index :: history) =
      swapsOf other history + if index = other then 1 else 0 := by
  simp [swapsOf, List.countP_cons]

theorem swapsOf_expired (tier : Tier) (index : Nat) (history : List Mark) :
    swapsOf index (.expired tier :: history) = swapsOf index history := by
  simp [swapsOf]

theorem conserving_initial
    {key : WindowKey}
    {backend : β}
    (empty : VersionChecked.read backend key = {})
    (available : Bool) :
    Conserving key (System.initial layout backend available) where
  stored := by
    intro tier
    rw [show sinceExpiry tier (System.initial layout backend
      available).history = 0 from rfl, countValue_zero]
    cases tier with
    | backend => exact empty
    | fallback => exact InProcessWindowStore.get_empty layout key
  sound := by simp [System.initial]
  once := by simp [System.initial, swapsOf, countedAt]

theorem hasCounted_of_swapping
    {call : Call}
    {attempts : Nat}
    {current : WindowValue}
    (progress : call.progress = .swapping attempts current) :
    call.hasCounted = false := by
  simp [Call.hasCounted, progress]

theorem hasCounted_counted
    (text : NumberText)
    (call : Call)
    (written : WindowValue) :
    Call.hasCounted { call with
      progress := .returned (.ok (counted text call.config written)) } =
        true := by
  have reason := counted_ne_contention text call.config written
  simpa [Call.hasCounted, contention] using reason

section Steps

variable {key : WindowKey} {system : System β layout}
  (conserving : Conserving key system)
include conserving

theorem Conserving.invoked
    {config : ThresholdEvaluatorConfig}
    {event : Event}
    (matching : windowKey config event = key) :
    Conserving key { system with
      calls := system.calls ++ [{ config := config, event := event }] } where
  stored := conserving.stored
  sound := Threads.forall_mem_concat conserving.sound ⟨matching, nofun⟩
  once := by
    intro index
    rw [countedAt_append system.calls rfl]
    exact conserving.once index

/-- A call moves on without a successful swap, with a value it has read if
any. -/
theorem Conserving.moved
    {index : Nat}
    {call : Call}
    (present : system.calls[index]? = some call)
    (notCounted : call.hasCounted = false)
    {progress : Progress}
    (movedNotCounted : Call.hasCounted { call with progress } = false)
    (reads : ∀ attempts current, progress = .swapping attempts current →
      ∃ count, count < countBound ∧ current = countValue count)
    {store : ExternalWindowStore β layout}
    (kept : store.valueAt key = system.store.valueAt key) :
    Conserving key { system with
      store
      calls := system.calls.set index { call with progress } } where
  stored := by
    intro tier
    rw [kept]
    exact conserving.stored tier
  sound := by
    have matching :=
      (conserving.sound call (List.mem_of_getElem? present)).1
    exact Threads.forall_mem_set conserving.sound ⟨matching, reads⟩
  once := by
    intro other
    rw [countedAt_set_of_eq present (by rw [movedNotCounted, notCounted])]
    exact conserving.once other

/-- A swap succeeds.  The value that was read and the stored one have the same
version, so they are the same count, wherever the first was read. -/
theorem Conserving.won
    {text : NumberText}
    {index : Nat}
    {call : Call}
    (present : system.calls[index]? = some call)
    {attempts : Nat}
    {current : WindowValue}
    (progress : call.progress = .swapping attempts current)
    (sameVersion : (system.store.valueAt key system.store.tier).version =
      current.version)
    {store : ExternalWindowStore β layout}
    (written : store.valueAt key =
      Function.update (system.store.valueAt key) system.store.tier
        (updated call.config current))
    (small : sinceExpiry system.store.tier system.history + 1 < countBound) :
    Conserving key {
      store
      calls := system.calls.set index { call with
        progress := .returned
          (.ok (counted text call.config (updated call.config current))) }
      history := .swapped system.store.tier index :: system.history } := by
  obtain ⟨matching, known⟩ :=
    conserving.sound call (List.mem_of_getElem? present)
  obtain ⟨count, countSmall, rfl⟩ := known attempts current progress
  have sameCount :
      sinceExpiry system.store.tier system.history = count := by
    rw [conserving.stored] at sameVersion
    exact countValue_eq_of_version_eq (by omega) countSmall sameVersion
  have writes : updated call.config (countValue count) =
      countValue (count + 1) :=
    updated_countValue call.config (by omega)
  refine ⟨?_, Threads.forall_mem_set conserving.sound ⟨matching, nofun⟩, ?_⟩
  · intro tier
    rw [written]
    by_cases here : tier = system.store.tier
    · subst tier
      rw [Function.update_self, writes, sinceExpiry, if_pos rfl, sameCount]
    · rw [Function.update_of_ne here, conserving.stored tier, sinceExpiry,
        if_neg (Ne.symm here)]
  · intro other
    rw [swapsOf_swapped, countedAt_set present, conserving.once other]
    by_cases here : index = other
    · subst other
      have before : countedAt system.calls index = false := by
        rw [countedAt, present]
        exact hasCounted_of_swapping progress
      rw [if_pos rfl, if_pos rfl, before, hasCounted_counted]
      rfl
    · rw [if_neg here, if_neg (Ne.symm here), Nat.add_zero]

theorem Conserving.expired :
    Conserving key { system with
      store := (StateStore.expire system.store key).2
      history := .expired system.store.tier :: system.history } where
  stored := by
    intro tier
    dsimp only
    rw [ExternalWindowStore.valueAt_expire]
    by_cases here : tier = system.store.tier
    · subst tier
      rw [Function.update_self, sinceExpiry, if_pos rfl, countValue_zero]
    · rw [Function.update_of_ne here, conserving.stored tier, sinceExpiry,
        if_neg (Ne.symm here)]
  sound := conserving.sound
  once := by
    intro index
    rw [swapsOf_expired]
    exact conserving.once index

theorem Conserving.flapped (answer : Bool) :
    Conserving key { system with
      store := { system.store with available := answer } } where
  stored := by
    intro tier
    rw [← conserving.stored tier]
    cases tier with
    | backend => rfl
    | fallback => rfl
  sound := conserving.sound
  once := conserving.once

end Steps

/-- One step keeps the invariant while counts are exact. -/
theorem conserving_step
    {text : NumberText}
    {key : WindowKey}
    (system : System β layout)
    (action : Action)
    (next : System β layout)
    (conserving : Conserving key system)
    (small : SmallCounts system)
    (nextSmall : SmallCounts next)
    (stepped : step text key system action = some next) :
    Conserving key next := by
  cases action with
  | invoke config event =>
      simp only [step] at stepped
      split at stepped
      · next matching =>
          cases stepped
          exact conserving.invoked matching
      · cases stepped
  | advance index =>
      obtain ⟨call, present, happened⟩ := step_advance_cases stepped
      have matching : windowKey call.config call.event = key :=
        (conserving.sound call (List.mem_of_getElem? present)).1
      rw [matching] at happened
      rcases happened with ⟨attempts, progress, rfl⟩ |
        ⟨attempts, current, store, progress, sameVersion, written, rfl⟩ |
        ⟨attempts, current, after, store, progress, afterCases, kept, rfl⟩
      · refine conserving.moved present (by simp [Call.hasCounted, progress])
          rfl ?_ rfl
        intro attempts current reads
        cases reads
        exact ⟨_, small.at _, conserving.stored _⟩
      · have counts := nextSmall.at system.store.tier
        rw [sinceExpiry, if_pos rfl] at counts
        exact conserving.won present progress sameVersion written counts
      · refine conserving.moved present (hasCounted_of_swapping progress)
          ?_ ?_ kept
        · rcases afterCases with rfl | rfl
          · rfl
          · simp [Call.hasCounted, contention]
        · rintro attempts current rfl
          rcases afterCases with swaps | swaps
          · cases swaps
          · cases swaps
  | expire =>
      cases stepped
      exact conserving.expired
  | available answer =>
      cases stepped
      exact conserving.flapped answer

/-- Flapping conserves counts.  In every run in which the counts of both
stores stay below `2 ^ 53`, the aggregate of each store is the number of
successful swaps sent to it since it last expired the key; a call that has
returned a count has swapped exactly once, and any other call never. -/
theorem flapping_conserves_counts
    (layout : StoreLayout)
    (text : NumberText)
    (key : WindowKey)
    (backend : β)
    (available : Bool)
    (empty : VersionChecked.read backend key = {})
    (actions : List Action)
    (final : System β layout)
    (countsExact : Machine.Throughout (step text key) SmallCounts
      (System.initial layout backend available) actions)
    (ran : Machine.run (step text key)
      (System.initial layout backend available) actions = some final) :
    (VersionChecked.read final.store.backend key).aggregate =
        .finite (sinceExpiry .backend final.history : ℚ) ∧
      (final.store.fallback.get key).aggregate =
        .finite (sinceExpiry .fallback final.history : ℚ) ∧
      ∀ index call, final.calls[index]? = some call →
        swapsOf index final.history = if call.hasCounted then 1 else 0 := by
  obtain ⟨stored, -, once⟩ : Conserving key final :=
    Machine.invariant_of_throughout
      (fun system action next conserving small nextSmall stepped =>
        conserving_step system action next conserving small nextSmall stepped)
      (conserving_initial empty available) countsExact ran
  refine ⟨congrArg WindowValue.aggregate (stored .backend),
    congrArg WindowValue.aggregate (stored .fallback), ?_⟩
  intro index call present
  rw [once index, countedAt, present]
  change call.hasCounted.toNat = _
  cases call.hasCounted with
  | false => rfl
  | true => rfl

/-- A call reads from the backend and swaps into the fallback; a second one
reads the count of the fallback, fails to swap it into the backend and tries
again there. -/
def flappingBackend : List Action :=
  [.invoke {} { tenantId := "acme", entityId := "alice" },
    .advance 0, .available false, .advance 0,
    .invoke {} { tenantId := "acme", entityId := "alice" },
    .advance 1, .available true, .advance 1, .advance 1, .advance 1]

/-- Each store has one of the two counts. -/
theorem flapping_conserves_crossSwap :
    ∃ final : System (InProcessWindowStore ⟨fun _ => 0, 1, by decide⟩)
        ⟨fun _ => 0, 1, by decide⟩,
      Machine.run
          (step ⟨fun _ => "", fun _ => 0⟩ ⟨"acme", "alice", "default", 0⟩)
          (System.initial _ (.empty _) true) flappingBackend = some final ∧
        (final.store.backend.get ⟨"acme", "alice", "default", 0⟩).aggregate =
          .finite (sinceExpiry .backend final.history : ℚ) ∧
        (final.store.fallback.get ⟨"acme", "alice", "default", 0⟩).aggregate =
          .finite (sinceExpiry .fallback final.history : ℚ) ∧
        sinceExpiry .backend final.history = 1 ∧
        sinceExpiry .fallback final.history = 1 := by
  refine ⟨_, (Option.some_get (by decide +kernel)).symm, ?_⟩
  have conserved := flapping_conserves_counts ⟨fun _ => 0, 1, by decide⟩
    ⟨fun _ => "", fun _ => 0⟩ ⟨"acme", "alice", "default", 0⟩
    (InProcessWindowStore.empty ⟨fun _ => 0, 1, by decide⟩) true
    (by decide +kernel) flappingBackend _ (by decide +kernel)
    (Option.some_get (by decide +kernel)).symm
  exact ⟨conserved.1, conserved.2.1, by decide +kernel, by decide +kernel⟩

end Flapping
end Evaluator
end Fre
