import Fre.State.DuckDbWindowStore

/-!
# The two stores behind one interface

A client of the `StateStore` concept sees results only.  The in-process store
keeps nothing for a missing key; the DuckDB store leaves a row of zeros behind
every swap that fails on a missing key.  As long as no key has a NUL in it, the
client cannot see the difference.
-/

namespace Fre
namespace State

open Foundation

namespace StateStore

/-- One call of a client: its result and the store after it. -/
def apply [StateStore σ] (store : σ) :
    VersionedMap.Op WindowKey WindowValue →
      Except StoreError (VersionedMap.Output WindowValue) × σ
  | .get key => ((StateStore.get store key).map .value, store)
  | .compareAndSwap key expectedVal newVal =>
      let swap := StateStore.compareAndSwap store key expectedVal newVal
      (swap.1.map .swapped, swap.2)
  | .expire key =>
      let expiry := StateStore.expire store key
      (expiry.1.map fun _ => .expired, expiry.2)

/-- The results of a sequence of calls. -/
def results [StateStore σ] :
    σ → List (VersionedMap.Op WindowKey WindowValue) →
      List (Except StoreError (VersionedMap.Output WindowValue))
  | _, [] => []
  | store, op :: rest => (apply store op).1 :: results (apply store op).2 rest

end StateStore

namespace DuckDbWindowStore

/-- The store over a database in which every statement succeeds. -/
instance : StateStore DuckDbWindowStore where
  get store := store.get .none
  compareAndSwap store := store.compareAndSwap .none
  expire store := store.expire .none
  isAvailable store := store.available

/-- The table shows every key as the in-process store does. -/
structure Mirrors (keys : Set WindowKey) (store : DuckDbWindowStore)
    (primary : InProcessWindowStore layout) : Prop where
  available : store.available = true
  agree : ∀ key ∈ keys, rowValue store.rows key = primary.get key

section Calls

variable {layout : StoreLayout} {keys : Set WindowKey}
  {store : DuckDbWindowStore} {primary : InProcessWindowStore layout}
  {key : WindowKey}

/-- Equal swaps succeed together. -/
theorem Mirrors.compareAndSwap
    (mirrors : Mirrors keys store primary)
    (distinct : Set.InjOn makeKey keys)
    (boundDistinct : Set.InjOn bindKey keys)
    (member : key ∈ keys)
    (expectedVal newVal : WindowValue) :
    (store.compareAndSwap .none key expectedVal newVal).1 =
        .ok (primary.compareAndSwap key expectedVal newVal).1 ∧
      Mirrors keys (store.compareAndSwap .none key expectedVal newVal).2
        (primary.compareAndSwap key expectedVal newVal).2 := by
  have success := (primary.compareAndSwap_eq key expectedVal newVal).1
  rw [compareAndSwap_none mirrors.available, mirrors.agree key member]
  split
  · next matching =>
      rw [decide_eq_true matching] at success
      refine ⟨by rw [success], mirrors.available, ?_⟩
      intro other otherMember
      dsimp only
      rw [rowValue_insert, rowValue_seedRow]
      split
      · next same =>
          rw [boundDistinct otherMember member same,
            primary.get_compareAndSwap matching]
      · next different =>
          have elsewhere : makeKey other ≠ makeKey key := fun equal =>
            different (congrArg bindKey (distinct otherMember member equal))
          rw [primary.get_compareAndSwap_of_ne
            (layout.locate_ne_of_makeKey_ne elsewhere)]
          exact mirrors.agree other otherMember
  · next differs =>
      rw [primary.compareAndSwap_of_ne differs]
      refine ⟨rfl, mirrors.available, ?_⟩
      intro other otherMember
      dsimp only
      rw [rowValue_seedRow]
      exact mirrors.agree other otherMember

theorem Mirrors.expire
    (mirrors : Mirrors keys store primary)
    (distinct : Set.InjOn makeKey keys)
    (boundDistinct : Set.InjOn bindKey keys)
    (member : key ∈ keys) :
    (store.expire .none key).1 = .ok () ∧
      Mirrors keys (store.expire .none key).2 (primary.expire key).2 := by
  rw [expire_none mirrors.available]
  refine ⟨rfl, mirrors.available, ?_⟩
  intro other otherMember
  dsimp only
  rw [rowValue_erase]
  split
  · next same =>
      rw [boundDistinct otherMember member same, primary.get_expire]
  · next different =>
      have elsewhere : makeKey other ≠ makeKey key := fun equal =>
        different (congrArg bindKey (distinct otherMember member equal))
      rw [primary.get_expire_of_ne (layout.locate_ne_of_makeKey_ne elsewhere)]
      exact mirrors.agree other otherMember

/-- One call returns the same and leaves the stores alike. -/
theorem Mirrors.apply
    (mirrors : Mirrors keys store primary)
    (distinct : Set.InjOn makeKey keys)
    (boundDistinct : Set.InjOn bindKey keys)
    {op : VersionedMap.Op WindowKey WindowValue}
    (member : op.key ∈ keys) :
    (StateStore.apply store op).1 = (StateStore.apply primary op).1 ∧
      Mirrors keys (StateStore.apply store op).2
        (StateStore.apply primary op).2 := by
  cases op with
  | get key =>
      refine ⟨?_, mirrors⟩
      have same : store.get .none key = .ok (primary.get key) := by
        rw [get_none mirrors.available, mirrors.agree key member]
      exact congrArg (Except.map VersionedMap.Output.value) same
  | compareAndSwap key expectedVal newVal =>
      obtain ⟨same, after⟩ := mirrors.compareAndSwap distinct boundDistinct
        member expectedVal newVal
      exact ⟨congrArg (Except.map VersionedMap.Output.swapped) same, after⟩
  | expire key =>
      obtain ⟨same, after⟩ := mirrors.expire distinct boundDistinct member
      exact ⟨congrArg (Except.map fun _ => VersionedMap.Output.expired) same,
        after⟩

end Calls

/-- Both stores, empty at the start, return the same to every sequence of calls
on keys without NUL and with different key strings. -/
theorem results_eq
    (layout : StoreLayout)
    (keys : Set WindowKey)
    (distinct : Set.InjOn makeKey keys)
    (noNul : ∀ key ∈ keys, key.NoNul)
    (ops : List (VersionedMap.Op WindowKey WindowValue))
    (known : ∀ op ∈ ops, op.key ∈ keys) :
    StateStore.results (⟨true, ∅⟩ : DuckDbWindowStore) ops =
      StateStore.results (InProcessWindowStore.empty layout) ops := by
  have boundDistinct := bindKey_injOn_noNul noNul
  have start : Mirrors keys ⟨true, ∅⟩ (InProcessWindowStore.empty layout) := by
    refine ⟨rfl, fun key _ => ?_⟩
    rw [InProcessWindowStore.get_empty, rowValue, AList.lookup_empty,
      Option.getD_none]
  suffices same : ∀ (store : DuckDbWindowStore)
      (primary : InProcessWindowStore layout), Mirrors keys store primary →
        StateStore.results store ops = StateStore.results primary ops from
    same _ _ start
  induction ops with
  | nil => exact fun _ _ _ => rfl
  | cons op rest inductionHypothesis =>
      intro store primary mirrors
      obtain ⟨sameResult, after⟩ := mirrors.apply distinct boundDistinct
        (known op List.mem_cons_self)
      rw [StateStore.results, StateStore.results, sameResult,
        inductionHypothesis
          (fun other present => known other (List.mem_cons_of_mem op present))
          _ _ after]

/-- A swap that fails on a missing key, which leaves a row behind, and all that
can be seen of it. -/
theorem results_eq_failedSwap :
    StateStore.results (⟨true, ∅⟩ : DuckDbWindowStore)
        [.compareAndSwap ⟨"acme", "alice", "logins", 0⟩ ⟨.finite 3, 3⟩
            ⟨.finite 4, 4⟩,
          .get ⟨"acme", "alice", "logins", 0⟩,
          .compareAndSwap ⟨"acme", "alice", "logins", 0⟩ {} ⟨.finite 1, 1⟩,
          .expire ⟨"acme", "alice", "logins", 0⟩] =
      StateStore.results
        (InProcessWindowStore.empty ⟨fun _ => 0, 1, by decide⟩)
        [.compareAndSwap ⟨"acme", "alice", "logins", 0⟩ ⟨.finite 3, 3⟩
            ⟨.finite 4, 4⟩,
          .get ⟨"acme", "alice", "logins", 0⟩,
          .compareAndSwap ⟨"acme", "alice", "logins", 0⟩ {} ⟨.finite 1, 1⟩,
          .expire ⟨"acme", "alice", "logins", 0⟩] := by
  apply results_eq ⟨fun _ => 0, 1, by decide⟩
    {⟨"acme", "alice", "logins", 0⟩} (Set.injOn_singleton _ _)
  · rintro _ rfl
    exact ⟨by decide, by decide, by decide⟩
  · simp [VersionedMap.Op.key]

end DuckDbWindowStore
end State
end Fre
