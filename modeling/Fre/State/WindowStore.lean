import Fre.Core.Error
import Fre.Core.Verdict
import Fre.Foundation.Separators
import Fre.Foundation.VersionedMap
import Mathlib.Data.List.AList

/-!
# The in-process window store

`InProcessWindowStore` spreads its entries over shards chosen by hashing the
tenant and the entity, and inside a shard looks them up under one formatted
string.  The pair of shard number and string is the location of a key.  The
store is a versioned map over locations; it is one over keys exactly as far as
no two keys in use share a location.
-/

namespace Fre
namespace State

open Foundation

/-- `WindowKey`. -/
structure WindowKey where
  tenantId : String
  entityId : String
  windowName : String
  epoch : UInt64 := 0
  deriving DecidableEq

/-- `WindowValue`. -/
structure WindowValue where
  aggregate : Double := .finite 0
  version : UInt64 := 0
  deriving DecidableEq

/-- `AggregationFn`. -/
inductive AggregationFn
  | count
  | sum
  | distinctCount
  deriving DecidableEq, Repr

/-- `GroupBy`. -/
inductive GroupBy
  | entityId
  | tenantId
  | tag
  deriving DecidableEq, Repr

/-- The `StateStore` concept. -/
class StateStore (σ : Type) where
  get : σ → WindowKey → Except StoreError WindowValue
  compareAndSwap :
    σ → WindowKey → WindowValue → WindowValue → Except StoreError Bool × σ
  expire : σ → WindowKey → Except StoreError Unit × σ
  isAvailable : σ → Bool

/-- What a store is built with: `std::hash<std::string>` and a positive number
of shards. -/
structure StoreLayout where
  hash : String → UInt64
  numShards : UInt32
  numShardsPositive : 0 < numShards.toNat

/-- `InProcessWindowStore::make_key`. -/
def makeKey (key : WindowKey) : String :=
  key.tenantId ++ ":" ++ key.entityId ++ ":" ++ key.windowName ++ ":" ++
    toString key.epoch.toNat

/-- Neither the tenant nor the entity of the key has a colon. -/
def WindowKey.NoColon (key : WindowKey) : Prop :=
  ':' ∉ key.tenantId.toList ∧ ':' ∉ key.entityId.toList

theorem toList_makeKey (key : WindowKey) :
    (makeKey key).toList =
      key.tenantId.toList ++ ':' :: (key.entityId.toList ++
        ':' :: (key.windowName.toList ++
          ':' :: Nat.toDigits 10 key.epoch.toNat)) := by
  simp [makeKey]

/-- The key strings of such keys are different for different keys. -/
theorem makeKey_injOn_noColon :
    Set.InjOn makeKey { key | key.NoColon } := by
  intro key free other otherFree same
  have texts := congrArg String.toList same
  rw [toList_makeKey, toList_makeKey] at texts
  obtain ⟨sameTenant, afterTenant⟩ :=
    Separators.append_cons_inj free.1 otherFree.1 texts
  obtain ⟨sameEntity, afterEntity⟩ :=
    Separators.append_cons_inj free.2 otherFree.2 afterTenant
  obtain ⟨sameWindow, sameDigits⟩ :=
    Separators.append_cons_inj_last
      (Separators.not_mem_toDigits (by decide) _)
      (Separators.not_mem_toDigits (by decide) _) afterEntity
  have sameEpoch : key.epoch.toNat = other.epoch.toNat :=
    Separators.toDigits_injective sameDigits
  cases key
  cases other
  simp only [WindowKey.mk.injEq]
  exact ⟨String.toList_injective sameTenant, String.toList_injective sameEntity,
    String.toList_injective sameWindow, UInt64.toNat_inj.1 sameEpoch⟩

namespace StoreLayout

/-- `InProcessWindowStore::shard_for`, as the index of the shard. -/
def shardFor (layout : StoreLayout) (key : WindowKey) :
    Fin layout.numShards.toNat :=
  ⟨((layout.hash key.tenantId ^^^ layout.hash key.entityId) %
      layout.numShards.toUInt64).toNat, by
    rw [UInt64.toNat_mod, UInt32.toNat_toUInt64]
    exact Nat.mod_lt _ layout.numShardsPositive⟩

/-- Where a key is stored: its shard and its string there. -/
def locate (layout : StoreLayout) (key : WindowKey) :
    Fin layout.numShards.toNat × String :=
  (layout.shardFor key, makeKey key)

/-- Different key strings are different locations. -/
theorem locate_ne_of_makeKey_ne
    (layout : StoreLayout)
    {key other : WindowKey}
    (different : makeKey key ≠ makeKey other) :
    layout.locate key ≠ layout.locate other :=
  fun same => different (congrArg Prod.snd same)

end StoreLayout

/-- `InProcessWindowStore`: one string-keyed table per shard. -/
structure InProcessWindowStore (layout : StoreLayout) where
  shards : Fin layout.numShards.toNat → AList fun _ : String => WindowValue

namespace InProcessWindowStore

variable {layout : StoreLayout}

/-- A new store. -/
def empty (layout : StoreLayout) : InProcessWindowStore layout where
  shards := fun _ => ∅

/-- `get`.  It never fails; a missing key reads as the zero value. -/
def get (store : InProcessWindowStore layout) (key : WindowKey) : WindowValue :=
  ((store.shards (layout.shardFor key)).lookup (makeKey key)).getD {}

/-- `compare_and_swap`.  Only the versions are compared; the call never
fails. -/
def compareAndSwap
    (store : InProcessWindowStore layout)
    (key : WindowKey)
    (expectedVal newVal : WindowValue) :
    Bool × InProcessWindowStore layout :=
  let shard := layout.shardFor key
  let current := ((store.shards shard).lookup (makeKey key)).getD {}
  if current.version ≠ expectedVal.version then (false, store)
  else
    (true, ⟨Function.update store.shards shard
      ((store.shards shard).insert (makeKey key) newVal)⟩)

/-- `expire`, with the argument the expiry callback is called with when the
key was present. -/
def expire (store : InProcessWindowStore layout) (key : WindowKey) :
    Option (WindowKey × WindowValue) × InProcessWindowStore layout :=
  let shard := layout.shardFor key
  match (store.shards shard).lookup (makeKey key) with
  | some value =>
      (some (key, value), ⟨Function.update store.shards shard
        ((store.shards shard).erase (makeKey key))⟩)
  | none => (none, store)

instance : StateStore (InProcessWindowStore layout) where
  get store key := .ok (store.get key)
  compareAndSwap store key expectedVal newVal :=
    let swap := store.compareAndSwap key expectedVal newVal
    (.ok swap.1, swap.2)
  expire store key := (.ok (), (store.expire key).2)
  isAvailable _ := true

/-! ## The store as a versioned map over locations -/

/-- Entries by location. -/
def entries (store : InProcessWindowStore layout) :
    Fin layout.numShards.toNat × String → Option WindowValue :=
  fun location => (store.shards location.1).lookup location.2

@[simp] theorem entries_empty :
    (empty layout).entries = fun _ => none := by
  funext location
  exact AList.lookup_empty location.2

theorem get_eq_read (store : InProcessWindowStore layout) (key : WindowKey) :
    store.get key = VersionedMap.read {} store.entries (layout.locate key) :=
  rfl

@[simp] theorem get_empty
    (layout : StoreLayout)
    (key : WindowKey) :
    (empty layout).get key = {} := by
  rw [get_eq_read, entries_empty]
  rfl

/-- Replacing one shard by a table that differs at one string changes one
location. -/
theorem entries_update
    (store : InProcessWindowStore layout)
    {shard : Fin layout.numShards.toNat}
    {text : String}
    {entry : Option WindowValue}
    {table : AList fun _ : String => WindowValue}
    (changed : table.lookup text = entry)
    (kept : ∀ other, other ≠ text →
      table.lookup other = (store.shards shard).lookup other) :
    entries ⟨Function.update store.shards shard table⟩ =
      Function.update store.entries (shard, text) entry := by
  funext ⟨otherShard, otherText⟩
  by_cases sameShard : otherShard = shard
  · subst otherShard
    by_cases sameText : otherText = text
    · subst otherText
      simp [entries, changed]
    · have different : (shard, otherText) ≠ (shard, text) := by
        simpa using sameText
      rw [Function.update_of_ne different]
      simp [entries, kept otherText sameText]
  · have different : (otherShard, otherText) ≠ (shard, text) := fun equal =>
      sameShard (congrArg Prod.fst equal)
    rw [Function.update_of_ne different]
    simp [entries, Function.update_of_ne sameShard]

/-- A swap succeeds exactly on a matching version and then writes the location
of its key. -/
theorem compareAndSwap_eq
    (store : InProcessWindowStore layout)
    (key : WindowKey)
    (expectedVal newVal : WindowValue) :
    (store.compareAndSwap key expectedVal newVal).1 =
        decide ((store.get key).version = expectedVal.version) ∧
      (store.compareAndSwap key expectedVal newVal).2.entries =
        if (store.get key).version = expectedVal.version then
          Function.update store.entries (layout.locate key) (some newVal)
        else store.entries := by
  unfold compareAndSwap
  dsimp only
  split
  · next differs =>
      have differs : (store.get key).version ≠ expectedVal.version := differs
      exact ⟨(decide_eq_false differs).symm, (if_neg differs).symm⟩
  · next matching =>
      have matching : (store.get key).version = expectedVal.version :=
        not_not.mp matching
      refine ⟨(decide_eq_true matching).symm, ?_⟩
      rw [if_pos matching]
      exact entries_update store (AList.lookup_insert _)
        fun other different => AList.lookup_insert_ne different

/-- A swap with another version than the stored one does nothing. -/
theorem compareAndSwap_of_ne
    (store : InProcessWindowStore layout)
    {key : WindowKey}
    {expectedVal : WindowValue}
    (differs : (store.get key).version ≠ expectedVal.version)
    (newVal : WindowValue) :
    store.compareAndSwap key expectedVal newVal = (false, store) :=
  if_pos differs

/-- After a successful swap the new value is read. -/
theorem get_compareAndSwap
    (store : InProcessWindowStore layout)
    {key : WindowKey}
    {expectedVal : WindowValue}
    (matching : (store.get key).version = expectedVal.version)
    (newVal : WindowValue) :
    (store.compareAndSwap key expectedVal newVal).2.get key = newVal := by
  obtain ⟨-, after⟩ := compareAndSwap_eq store key expectedVal newVal
  rw [get_eq_read, after, if_pos matching, VersionedMap.read,
    Function.update_self, Option.getD_some]

theorem get_compareAndSwap_of_ne
    (store : InProcessWindowStore layout)
    {key other : WindowKey}
    (different : layout.locate other ≠ layout.locate key)
    (expectedVal newVal : WindowValue) :
    (store.compareAndSwap key expectedVal newVal).2.get other =
      store.get other := by
  obtain ⟨-, after⟩ := compareAndSwap_eq store key expectedVal newVal
  rw [get_eq_read, get_eq_read, after, VersionedMap.read, VersionedMap.read]
  split
  · rw [Function.update_of_ne different]
  · rfl

/-- A swap leaves the other keys of a set with different key strings. -/
theorem get_compareAndSwap_of_distinct
    (store : InProcessWindowStore layout)
    {keys : Set WindowKey}
    (distinct : Set.InjOn makeKey keys)
    {key other : WindowKey}
    (member : key ∈ keys)
    (otherMember : other ∈ keys)
    (different : other ≠ key)
    (expectedVal newVal : WindowValue) :
    (store.compareAndSwap key expectedVal newVal).2.get other =
      store.get other := by
  apply store.get_compareAndSwap_of_ne
  apply layout.locate_ne_of_makeKey_ne
  intro same
  exact different (distinct otherMember member same)

/-- Expiring forgets the location of the key. -/
theorem entries_expire
    (store : InProcessWindowStore layout)
    (key : WindowKey) :
    (store.expire key).2.entries =
      Function.update store.entries (layout.locate key) none := by
  unfold expire
  dsimp only
  split
  · exact entries_update store (AList.lookup_erase _ _)
      fun other different => AList.lookup_erase_ne different
  · next absent =>
      have absent : store.entries (layout.locate key) = none := absent
      rw [← absent, Function.update_eq_self]

theorem get_expire
    (store : InProcessWindowStore layout)
    (key : WindowKey) :
    (store.expire key).2.get key = {} := by
  rw [get_eq_read, entries_expire, VersionedMap.read, Function.update_self,
    Option.getD_none]

theorem get_expire_of_ne
    (store : InProcessWindowStore layout)
    {key other : WindowKey}
    (different : layout.locate other ≠ layout.locate key) :
    (store.expire key).2.get other = store.get other := by
  rw [get_eq_read, get_eq_read, entries_expire, VersionedMap.read,
    VersionedMap.read, Function.update_of_ne different]

/-- So does expiring. -/
theorem get_expire_of_distinct
    (store : InProcessWindowStore layout)
    {keys : Set WindowKey}
    (distinct : Set.InjOn makeKey keys)
    {key other : WindowKey}
    (member : key ∈ keys)
    (otherMember : other ∈ keys)
    (different : other ≠ key) :
    (store.expire key).2.get other = store.get other := by
  apply store.get_expire_of_ne
  apply layout.locate_ne_of_makeKey_ne
  intro same
  exact different (distinct otherMember member same)

/-- One client operation on the store: its output and the store after it. -/
def apply (store : InProcessWindowStore layout) :
    VersionedMap.Op WindowKey WindowValue →
      VersionedMap.Output WindowValue × InProcessWindowStore layout
  | .get key => (.value (store.get key), store)
  | .compareAndSwap key expectedVal newVal =>
      (.swapped (store.compareAndSwap key expectedVal newVal).1,
        (store.compareAndSwap key expectedVal newVal).2)
  | .expire key => (.expired, (store.expire key).2)

/-- Outputs of a sequence of client operations. -/
def outputs :
    InProcessWindowStore layout →
      List (VersionedMap.Op WindowKey WindowValue) →
      List (VersionedMap.Output WindowValue)
  | _, [] => []
  | store, op :: rest => (store.apply op).1 :: outputs (store.apply op).2 rest

/-- The store simulates the versioned map over locations. -/
theorem apply_simulates
    (store : InProcessWindowStore layout)
    (op : VersionedMap.Op WindowKey WindowValue) :
    VersionedMap.apply WindowValue.version {} store.entries
        (op.map layout.locate) =
      ((store.apply op).1, (store.apply op).2.entries) := by
  cases op with
  | get key => rfl
  | compareAndSwap key expectedVal newVal =>
      obtain ⟨success, after⟩ := compareAndSwap_eq store key expectedVal newVal
      simp only [VersionedMap.Op.map, VersionedMap.apply, apply, success, after,
        ← get_eq_read]
      split
      · next matching => simp [matching]
      · next differs => simp [differs]
  | expire key =>
      simp only [VersionedMap.Op.map, VersionedMap.apply, apply,
        entries_expire]

theorem outputs_simulates
    (store : InProcessWindowStore layout)
    (ops : List (VersionedMap.Op WindowKey WindowValue)) :
    store.outputs ops =
      VersionedMap.outputs WindowValue.version {} store.entries
        (ops.map (VersionedMap.Op.map layout.locate)) := by
  induction ops generalizing store with
  | nil => rfl
  | cons op rest inductionHypothesis =>
      simp only [outputs, List.map_cons, VersionedMap.outputs,
        apply_simulates, inductionHypothesis]

/-- Over a set of keys, a new store returns to every sequence of operations
what a plain map from keys to values returns, exactly when no two keys of the
set have the same shard and the same key string. -/
theorem outputs_eq_plainMap_iff
    (layout : StoreLayout)
    (keys : Set WindowKey) :
    (∀ ops : List (VersionedMap.Op WindowKey WindowValue),
      (∀ op ∈ ops, op.key ∈ keys) →
        (empty layout).outputs ops =
          VersionedMap.outputs WindowValue.version {} (fun _ => none) ops) ↔
      Set.InjOn layout.locate keys := by
  have newDiffers : ({ aggregate := .finite 1, version := 1 } : WindowValue) ≠
      {} := by decide
  simp only [outputs_simulates, entries_empty]
  exact VersionedMap.outputs_map_eq_iff_injOn WindowValue.version {} newDiffers

/-- As long as no tenant and no entity has a colon in its name, a new store
cannot be told from a plain map. -/
theorem outputs_eq_plainMap_of_noColon
    (layout : StoreLayout)
    {ops : List (VersionedMap.Op WindowKey WindowValue)}
    (noColon : ∀ op ∈ ops, op.key.NoColon) :
    (empty layout).outputs ops =
      VersionedMap.outputs WindowValue.version {} (fun _ => none) ops := by
  have injective : Set.InjOn layout.locate { key | key.NoColon } :=
    fun key free other otherFree same =>
      makeKey_injOn_noColon free otherFree (congrArg Prod.snd same)
  have agrees : VersionedMap.Agrees layout.locate { key | key.NoColon }
      (fun _ => (none : Option WindowValue)) fun _ => none :=
    fun _ _ => rfl
  rw [outputs_simulates, entries_empty]
  exact agrees.outputs WindowValue.version {} injective noColon

/-- Two tenants share one counter: the strings of these keys are equal, and in
a store of one shard so are their locations. -/
theorem tenants_share_counter :
    (empty ⟨fun _ => 0, 1, by decide⟩).outputs
        [.compareAndSwap ⟨"acme", "eu:alice", "logins", 0⟩ {}
            ⟨.finite 1, 1⟩,
          .get ⟨"acme:eu", "alice", "logins", 0⟩] ≠
      VersionedMap.outputs WindowValue.version {}
        (fun _ : WindowKey => none)
        [.compareAndSwap ⟨"acme", "eu:alice", "logins", 0⟩ {}
            ⟨.finite 1, 1⟩,
          .get ⟨"acme:eu", "alice", "logins", 0⟩] := by
  decide

end InProcessWindowStore
end State
end Fre
