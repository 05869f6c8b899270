import Fre.Foundation.Monitors
import Fre.State.WindowStore

/-!
# The mutexes of the in-process store

Each shard of `InProcessWindowStore` has a mutex, and every operation looks up
its key, and changes the table, while it holds the mutex of the shard.  Calls
of any number of threads interleave between these steps.  They cannot be told
from calls that are single steps, which is how the store is modelled elsewhere.
-/

namespace Fre
namespace State
namespace LockedWindowStore

open Foundation

variable {layout : StoreLayout}

/-- A call of the store. -/
abbrev Operation := VersionedMap.Op WindowKey WindowValue

/-- What a call returns. -/
abbrev Result := VersionedMap.Output WindowValue

/-- The table of a shard. -/
abbrev ShardData := AList fun _ : String => WindowValue

/-- Where a call is while it holds the mutex. -/
inductive Section
  | find (operation : Operation)
  | compare (keyStr : String) (current expectedVal newVal : WindowValue)
  | insert (keyStr : String) (newVal : WindowValue)
  | assign (keyStr : String) (newVal : WindowValue)
  | erase (keyStr : String)

/-- One step of a call on the table of its shard.  `shard.data[key_str]` makes an
entry before the value is assigned to it.  The expiry callback, which is called
before the entry is erased, is left out: none that uses the store is registered,
since it would wait for the mutex that its own call holds. -/
def work : Section → ShardData → (Section ⊕ Result) × ShardData
  | .find (.get key), data =>
      (.inr (.value ((data.lookup (makeKey key)).getD {})), data)
  | .find (.compareAndSwap key expectedVal newVal), data =>
      (.inl (.compare (makeKey key) ((data.lookup (makeKey key)).getD {})
        expectedVal newVal), data)
  | .compare keyStr current expectedVal newVal, data =>
      if current.version ≠ expectedVal.version then (.inr (.swapped false), data)
      else (.inl (.insert keyStr newVal), data)
  | .insert keyStr newVal, data =>
      (.inl (.assign keyStr newVal),
        if keyStr ∈ data then data else data.insert keyStr {})
  | .assign keyStr newVal, data =>
      (.inr (.swapped true), data.insert keyStr newVal)
  | .find (.expire key), data =>
      match data.lookup (makeKey key) with
      | some _ => (.inl (.erase (makeKey key)), data)
      | none => (.inr .expired, data)
  | .erase keyStr, data => (.inr .expired, data.erase keyStr)

/-- The critical sections of the store. -/
def sections (layout : StoreLayout) :
    Monitors.Sections (Fin layout.numShards.toNat) ShardData Operation Result
      Section where
  lockOf := fun operation => layout.shardFor operation.key
  enter := .find
  work := work

/-- The result of a section, and the table after it. -/
def outcome : Section → ShardData → Result × ShardData
  | .find (.get key), data =>
      (.value ((data.lookup (makeKey key)).getD {}), data)
  | .find (.compareAndSwap key expectedVal newVal), data =>
      if ((data.lookup (makeKey key)).getD {}).version ≠ expectedVal.version then
        (.swapped false, data)
      else (.swapped true, data.insert (makeKey key) newVal)
  | .compare keyStr current expectedVal newVal, data =>
      if current.version ≠ expectedVal.version then (.swapped false, data)
      else (.swapped true, data.insert keyStr newVal)
  | .insert keyStr newVal, data => (.swapped true, data.insert keyStr newVal)
  | .assign keyStr newVal, data => (.swapped true, data.insert keyStr newVal)
  | .find (.expire key), data =>
      (.expired,
        if (data.lookup (makeKey key)).isSome then data.erase (makeKey key)
        else data)
  | .erase keyStr, data => (.expired, data.erase keyStr)

/-- A bound on the steps of a section. -/
def rank : Section → Nat
  | .find _ => 3
  | .compare .. => 2
  | .insert .. => 1
  | .assign .. => 0
  | .erase _ => 0

/-- The sections end with their results. -/
def meaning (layout : StoreLayout) : Monitors.Meaning (sections layout) where
  outcome := outcome
  rank := rank
  goesOn := by
    intro here data next after worked
    change work here data = _ at worked
    unfold work at worked
    split at worked
    next => cases worked
    next =>
      cases worked
      exact ⟨rfl, Nat.lt_succ_self 2⟩
    next =>
      split at worked
      next => cases worked
      next same =>
        cases worked
        exact ⟨if_neg same, Nat.lt_succ_self 1⟩
    next keyStr newVal =>
      cases worked
      refine ⟨?_, Nat.lt_succ_self 0⟩
      change (VersionedMap.Output.swapped true, _) =
        (VersionedMap.Output.swapped true, _)
      by_cases present : keyStr ∈ data
      · rw [if_pos present]
      · rw [if_neg present, AList.insert_insert]
    next => cases worked
    next key =>
      split at worked
      next found =>
        cases worked
        refine ⟨?_, Nat.succ_pos 2⟩
        simp [outcome, found]
      next => cases worked
    next => cases worked
  ends := by
    intro here data result after worked
    change work here data = _ at worked
    unfold work at worked
    split at worked
    next =>
      cases worked
      rfl
    next => cases worked
    next =>
      split at worked
      next differs =>
        cases worked
        exact if_pos differs
      next => cases worked
    next => cases worked
    next =>
      cases worked
      rfl
    next key =>
      split at worked
      next => cases worked
      next absent =>
        cases worked
        simp [outcome, absent]
    next =>
      cases worked
      rfl

/-- As a single step, a call does what the model of the store says. -/
theorem perform_eq
    (store : InProcessWindowStore layout)
    (operation : Operation) :
    Monitors.perform (meaning layout) operation store.shards =
      ((store.apply operation).1, (store.apply operation).2.shards) := by
  cases operation with
  | get key =>
      refine Prod.ext rfl ?_
      exact Function.update_eq_self (layout.shardFor key) store.shards
  | compareAndSwap key expectedVal newVal =>
      simp only [Monitors.perform, meaning, sections, outcome,
        InProcessWindowStore.apply, InProcessWindowStore.compareAndSwap,
        VersionedMap.Op.key]
      split
      · rw [Function.update_eq_self]
      · rfl
  | expire key =>
      simp only [Monitors.perform, meaning, sections, outcome,
        InProcessWindowStore.apply, InProcessWindowStore.expire,
        VersionedMap.Op.key]
      cases found : (store.shards (layout.shardFor key)).lookup
          (makeKey key) with
      | some value => rfl
      | none => simp

/-! ### Clients of the store -/

/-- The store whose calls are single steps, and its clients. -/
structure StoreSystem (layout : StoreLayout) (γ : Type) where
  store : InProcessWindowStore layout
  clients : List γ := []

variable {γ : Type} (client : Monitors.Client γ Operation Result)

/-- A new client, or the next call of a client. -/
def storeStep (system : StoreSystem layout γ) :
    Monitors.Call γ → Option (StoreSystem layout γ)
  | .start new => some { system with clients := system.clients ++ [new] }
  | .perform index =>
      match system.clients[index]? with
      | some own =>
          match client.request own with
          | some operation =>
              some
                { store := (system.store.apply operation).2
                  clients := system.clients.set index
                    (client.resume own (system.store.apply operation).1) }
          | none => none
      | none => none

/-- A step of the store with the mutexes. -/
abbrev lockedStep (layout : StoreLayout) :=
  Monitors.step (sections layout) client

/-- The store before any call. -/
def initial (layout : StoreLayout) :
    Monitors.Locked (Fin layout.numShards.toNat) ShardData γ Operation Result
      Section where
  data := (InProcessWindowStore.empty layout).shards

/-- The plain object of the library is the store. -/
theorem atomicStep_eq
    (system : StoreSystem layout γ)
    (call : Monitors.Call γ) :
    Monitors.atomicStep client (meaning layout)
        ⟨system.store.shards, system.clients⟩ call =
      (storeStep client system call).map fun next =>
        ⟨next.store.shards, next.clients⟩ := by
  cases call with
  | start new => rfl
  | perform index =>
      simp only [Monitors.atomicStep, storeStep]
      cases system.clients[index]? with
      | none => rfl
      | some own =>
          cases requested : client.request own with
          | none => simp [requested]
          | some operation =>
              simp only [requested]
              rw [perform_eq]
              rfl

theorem run_atomicStep
    (system : StoreSystem layout γ)
    {calls : List (Monitors.Call γ)}
    {after : Monitors.Atomic (Fin layout.numShards.toNat) ShardData γ}
    (ran : Machine.run (Monitors.atomicStep client (meaning layout))
      ⟨system.store.shards, system.clients⟩ calls = some after) :
    ∃ next : StoreSystem layout γ,
      Machine.run (storeStep client) system calls = some next ∧
        after = ⟨next.store.shards, next.clients⟩ := by
  induction calls generalizing system with
  | nil =>
      cases ran
      exact ⟨system, rfl, rfl⟩
  | cons call rest inductionHypothesis =>
      obtain ⟨middle, stepped, restRan⟩ :=
        (Machine.run_cons_eq_some_iff _ _ _ _ _).mp ran
      rw [atomicStep_eq] at stepped
      obtain ⟨next, storeStepped, rfl⟩ := Option.map_eq_some_iff.mp stepped
      obtain ⟨final, finalRan, same⟩ := inductionHypothesis next restRan
      refine ⟨final, ?_, same⟩
      rw [Machine.run_cons_eq_some_iff]
      exact ⟨next, storeStepped, finalRan⟩

/-- What clients see of the store with the mutexes, they see of the store whose
calls are single steps. -/
structure LooksAtomic
    (client : Monitors.Client γ Operation Result)
    (system : Monitors.Locked (Fin layout.numShards.toNat) ShardData γ Operation
      Result Section)
    (plain : StoreSystem layout γ) : Prop where
  clients : plain.clients = system.threads.map (Monitors.settled client)
  unlocked : ∀ shard, system.owner shard = none →
    system.data shard = plain.store.shards shard

/-- After any number of steps the store with the mutexes is shown by the plain
one after as many segments of calls. -/
theorem exists_plain_run
    {actions : List (Monitors.Action γ)}
    {final : Monitors.Locked (Fin layout.numShards.toNat) ShardData γ Operation
      Result Section}
    (ran : Machine.run (lockedStep client layout) (initial layout) actions =
      some final) :
    ∃ segments : List (List (Monitors.Call γ)),
      segments.length = actions.length ∧
      ∀ count, ∃ middle plain,
        Machine.run (lockedStep client layout) (initial layout)
            (actions.take count) = some middle ∧
          Machine.run (storeStep client) ⟨.empty layout, []⟩
            (segments.take count).flatten = some plain ∧
          (segments.take count).flatten.filterMap Monitors.Call.started =
            (actions.take count).filterMap Monitors.Action.started ∧
          Monitors.Shows client (meaning layout) middle
            ⟨plain.store.shards, plain.clients⟩ := by
  have start : Monitors.Shows client (meaning layout) (initial layout) _ :=
    Monitors.shows_initial _
  obtain ⟨segments, sameLength, along⟩ := start.run ran
  refine ⟨segments, sameLength, fun count => ?_⟩
  obtain ⟨middle, after, middleRan, atomicRan, started, shows⟩ := along count
  obtain ⟨plain, plainRan, rfl⟩ :=
    run_atomicStep client ⟨.empty layout, []⟩ atomicRan
  exact ⟨middle, plain, middleRan, plainRan, started, shows⟩

/-- The same at the end of the run. -/
theorem exists_plain_run_at_end
    {actions : List (Monitors.Action γ)}
    {final : Monitors.Locked (Fin layout.numShards.toNat) ShardData γ Operation
      Result Section}
    (ran : Machine.run (lockedStep client layout) (initial layout) actions =
      some final) :
    ∃ calls plain,
      Machine.run (storeStep client) ⟨.empty layout, []⟩ calls = some plain ∧
        calls.filterMap Monitors.Call.started =
          actions.filterMap Monitors.Action.started ∧
        Monitors.Shows client (meaning layout) final
          ⟨plain.store.shards, plain.clients⟩ := by
  obtain ⟨segments, sameLength, along⟩ := exists_plain_run client ran
  obtain ⟨middle, plain, middleRan, plainRan, started, shows⟩ :=
    along actions.length
  rw [List.take_length, ran, Option.some.injEq] at middleRan
  subst middleRan
  rw [List.take_length] at started
  exact ⟨_, plain, plainRan, started, shows⟩

/-- For every number of shards, every kind and number of clients, and every
interleaving of their steps around the mutexes of the shards, each step stands
for some calls of a plain store, such that after any number of steps the clients
have what the plain store has given them, and every shard whose mutex is free
has the entries of the plain store.  The calls that are under way can always be
finished without any further one; then no mutex is held, and the stores are the
same. -/
theorem locked_store_looks_atomic
    {actions : List (Monitors.Action γ)}
    {final : Monitors.Locked (Fin layout.numShards.toNat) ShardData γ Operation
      Result Section}
    (ran : Machine.run (lockedStep client layout) (initial layout) actions =
      some final) :
    (∃ segments : List (List (Monitors.Call γ)),
      segments.length = actions.length ∧
      ∀ count, ∃ middle plain,
        Machine.run (lockedStep client layout) (initial layout)
            (actions.take count) = some middle ∧
          Machine.run (storeStep client) ⟨.empty layout, []⟩
            (segments.take count).flatten = some plain ∧
          (segments.take count).flatten.filterMap Monitors.Call.started =
            (actions.take count).filterMap Monitors.Action.started ∧
          LooksAtomic client middle plain) ∧
      ∃ finishing rest calls plain,
        (∀ action ∈ finishing, Monitors.Action.ends action) ∧
        Machine.run (lockedStep client layout) final finishing = some rest ∧
        (∀ shard, rest.owner shard = none) ∧
        Machine.run (storeStep client) ⟨.empty layout, []⟩ calls = some plain ∧
        plain.store.shards = rest.data ∧
        plain.clients = rest.threads.map Prod.fst := by
  constructor
  · obtain ⟨segments, sameLength, along⟩ := exists_plain_run client ran
    refine ⟨segments, sameLength, fun count => ?_⟩
    obtain ⟨middle, plain, middleRan, plainRan, started, shows⟩ := along count
    exact ⟨middle, plain, middleRan, plainRan, started, shows.clients,
      shows.free⟩
  · have hold := Monitors.ownersHold_of_run ran
    obtain ⟨finishing, rest, ends, -, restRan, outside, free⟩ :=
      Monitors.exists_run_to_rest (meaning layout) final hold
    have whole : Machine.run (lockedStep client layout) (initial layout)
        (actions ++ finishing) = some rest := by
      rw [Machine.run_append_eq_some_iff]
      exact ⟨final, ran, restRan⟩
    obtain ⟨calls, plain, plainRan, -, shows⟩ :=
      exists_plain_run_at_end client whole
    have same := shows.eq_at_rest outside free
    rw [Monitors.Atomic.mk.injEq] at same
    exact ⟨finishing, rest, calls, plain, ends, restRan, free, plainRan, same⟩

/-- A client that makes some calls and keeps what they return. -/
def script : Monitors.Client (List Operation × List Result) Operation Result where
  request := fun own => own.1.head?
  resume := fun own result => (own.1.tail, own.2 ++ [result])

/-- A store with one shard. -/
def oneShard : StoreLayout := ⟨fun _ => 0, 1, Nat.zero_lt_one⟩

/-- A swap of a new key. -/
def firstSwap : Operation :=
  .compareAndSwap ⟨"acme", "alice", "default", 0⟩ {} { version := 1 }

/-- Two threads swap the same key; the second has taken the mutex and is under
way. -/
def racingSwaps : List (Monitors.Action (List Operation × List Result)) :=
  [.start ([firstSwap], []), .start ([firstSwap], []), .lock 0, .work 0, .work 0,
    .work 0, .work 0, .unlock 0, .lock 1, .work 1]

/-- The run of these steps. -/
def racingRun := Machine.run (lockedStep script oneShard) (initial oneShard)
  racingSwaps

theorem isSome_racingRun : racingRun.isSome = true := by decide +kernel

/-- The call that is under way there can be finished. -/
theorem locked_store_looks_atomic_racing :
    ∃ final finishing rest, racingRun = some final ∧
      Machine.run (lockedStep script oneShard) final finishing = some rest ∧
      ∀ shard, rest.owner shard = none := by
  have ran := (Option.some_get isSome_racingRun).symm
  obtain ⟨finishing, rest, -, -, -, restRan, free, -⟩ :=
    (locked_store_looks_atomic script ran).2
  exact ⟨_, finishing, rest, ran, restRan, free⟩

end LockedWindowStore
end State
end Fre
