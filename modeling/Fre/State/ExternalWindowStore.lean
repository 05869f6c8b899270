import Fre.State.WindowStore

/-!
# The external window store

`ExternalWindowStore` asks its backend whether it is available at every call,
and sends the call to the backend or to an in-process fallback.  The two keep
separate values of one key: what is read from one may be swapped into the
other.  The backend is outside the program; a backend that checks versions is
one that reads what was written last and swaps on a matching version.
-/

namespace Fre
namespace State

/-- A store that never fails and swaps exactly on a matching version; a
missing key reads as the zero value once it is expired. -/
class VersionChecked (σ : Type) [StateStore σ] where
  read : σ → WindowKey → WindowValue
  get_eq : ∀ store key, StateStore.get store key = .ok (read store key)
  swap_matching : ∀ store key expectedVal newVal,
    (read store key).version = expectedVal.version →
      ∃ after, StateStore.compareAndSwap store key expectedVal newVal =
        (.ok true, after) ∧ read after key = newVal
  swap_differs : ∀ store key expectedVal newVal,
    (read store key).version ≠ expectedVal.version →
      ∃ after, StateStore.compareAndSwap store key expectedVal newVal =
        (.ok false, after) ∧ read after key = read store key
  expire_eq : ∀ store key,
    ∃ after, StateStore.expire store key = (.ok (), after) ∧
      read after key = {}

instance {layout : StoreLayout} :
    VersionChecked (InProcessWindowStore layout) where
  read := InProcessWindowStore.get
  get_eq _ _ := rfl
  swap_matching store key expectedVal newVal matching := by
    refine ⟨(store.compareAndSwap key expectedVal newVal).2, ?_,
      store.get_compareAndSwap matching newVal⟩
    have success := (store.compareAndSwap_eq key expectedVal newVal).1
    rw [decide_eq_true matching] at success
    simp only [StateStore.compareAndSwap, success]
  swap_differs store key expectedVal newVal differs := by
    refine ⟨store, ?_, rfl⟩
    simp only [StateStore.compareAndSwap,
      store.compareAndSwap_of_ne differs newVal]
  expire_eq store key := ⟨(store.expire key).2, rfl, store.get_expire key⟩

/-- The store a call is sent to. -/
inductive Tier
  | backend
  | fallback
  deriving DecidableEq, Repr

/-- `ExternalWindowStore`.  `available` is what the backend answers at present
when it is asked, false also when its table has no such function. -/
structure ExternalWindowStore (β : Type) (layout : StoreLayout) where
  backend : β
  fallback : InProcessWindowStore layout
  available : Bool

namespace ExternalWindowStore

variable {β : Type} {layout : StoreLayout}

/-- Where a call goes at present. -/
def tier (store : ExternalWindowStore β layout) : Tier :=
  if store.available then .backend else .fallback

theorem tier_of_available
    {store : ExternalWindowStore β layout}
    (available : store.available = true) :
    store.tier = .backend :=
  if_pos available

theorem tier_of_unavailable
    {store : ExternalWindowStore β layout}
    (unavailable : store.available = false) :
    store.tier = .fallback :=
  if_neg (by simp [unavailable])

instance [StateStore β] : StateStore (ExternalWindowStore β layout) where
  get store key :=
    if store.available then StateStore.get store.backend key
    else StateStore.get store.fallback key
  compareAndSwap store key expectedVal newVal :=
    if store.available then
      let swap :=
        StateStore.compareAndSwap store.backend key expectedVal newVal
      (swap.1, { store with backend := swap.2 })
    else
      let swap :=
        StateStore.compareAndSwap store.fallback key expectedVal newVal
      (swap.1, { store with fallback := swap.2 })
  expire store key :=
    if store.available then
      let expired := StateStore.expire store.backend key
      (expired.1, { store with backend := expired.2 })
    else
      let expired := StateStore.expire store.fallback key
      (expired.1, { store with fallback := expired.2 })
  isAvailable store := store.available

section Calls

variable [StateStore β] {store : ExternalWindowStore β layout}
  {key : WindowKey} {expectedVal newVal : WindowValue}

theorem compareAndSwap_of_available (available : store.available = true) :
    StateStore.compareAndSwap store key expectedVal newVal =
      ((StateStore.compareAndSwap store.backend key expectedVal newVal).1,
        { store with backend :=
            (StateStore.compareAndSwap store.backend key expectedVal
              newVal).2 }) :=
  if_pos available

theorem compareAndSwap_of_unavailable (unavailable : store.available = false) :
    StateStore.compareAndSwap store key expectedVal newVal =
      ((StateStore.compareAndSwap store.fallback key expectedVal newVal).1,
        { store with fallback :=
            (StateStore.compareAndSwap store.fallback key expectedVal
              newVal).2 }) :=
  if_neg (by simp [unavailable])

theorem expire_of_available (available : store.available = true) :
    StateStore.expire store key =
      ((StateStore.expire store.backend key).1,
        { store with backend := (StateStore.expire store.backend key).2 }) :=
  if_pos available

theorem expire_of_unavailable (unavailable : store.available = false) :
    StateStore.expire store key =
      ((StateStore.expire store.fallback key).1,
        { store with fallback := (StateStore.expire store.fallback key).2 }) :=
  if_neg (by simp [unavailable])

end Calls

/-! ## The two values of a key -/

section Values

variable [StateStore β] [VersionChecked β]
  (store : ExternalWindowStore β layout) {key : WindowKey}
  {expectedVal : WindowValue}

/-- The value of a key in one of the two stores. -/
def valueAt (key : WindowKey) : Tier → WindowValue
  | .backend => VersionChecked.read store.backend key
  | .fallback => VersionChecked.read store.fallback key

theorem valueAt_with_backend (backend : β) :
    ({ store with backend } : ExternalWindowStore β layout).valueAt key =
      Function.update (store.valueAt key) .backend
        (VersionChecked.read backend key) := by
  funext tier
  cases tier with
  | backend => rfl
  | fallback => rfl

theorem valueAt_with_fallback (fallback : InProcessWindowStore layout) :
    ({ store with fallback } : ExternalWindowStore β layout).valueAt key =
      Function.update (store.valueAt key) .fallback
        (VersionChecked.read fallback key) := by
  funext tier
  cases tier with
  | backend => rfl
  | fallback => rfl

/-- `get` reads the store it is sent to. -/
theorem get_eq (key : WindowKey) :
    StateStore.get store key = .ok (store.valueAt key store.tier) := by
  cases available : store.available with
  | true =>
      rw [tier_of_available available]
      exact (if_pos available).trans (VersionChecked.get_eq store.backend key)
  | false =>
      rw [tier_of_unavailable available]
      exact (if_neg (by simp [available])).trans
        (VersionChecked.get_eq store.fallback key)

/-- A swap on a matching version writes the store it is sent to. -/
theorem swap_matching
    (matching : (store.valueAt key store.tier).version = expectedVal.version)
    (newVal : WindowValue) :
    ∃ after : ExternalWindowStore β layout,
      StateStore.compareAndSwap store key expectedVal newVal =
          (.ok true, after) ∧
        after.valueAt key =
          Function.update (store.valueAt key) store.tier newVal := by
  cases available : store.available with
  | true =>
      rw [tier_of_available available] at matching ⊢
      obtain ⟨backend, swapped, written⟩ := VersionChecked.swap_matching
        store.backend key expectedVal newVal matching
      refine ⟨{ store with backend }, ?_, ?_⟩
      · rw [compareAndSwap_of_available available, swapped]
      · rw [valueAt_with_backend, written]
  | false =>
      rw [tier_of_unavailable available] at matching ⊢
      obtain ⟨fallback, swapped, written⟩ := VersionChecked.swap_matching
        store.fallback key expectedVal newVal matching
      refine ⟨{ store with fallback }, ?_, ?_⟩
      · rw [compareAndSwap_of_unavailable available, swapped]
      · rw [valueAt_with_fallback, written]

/-- A swap on another version changes no value. -/
theorem swap_differs
    (differs : (store.valueAt key store.tier).version ≠ expectedVal.version)
    (newVal : WindowValue) :
    ∃ after : ExternalWindowStore β layout,
      StateStore.compareAndSwap store key expectedVal newVal =
          (.ok false, after) ∧
        after.valueAt key = store.valueAt key := by
  cases available : store.available with
  | true =>
      rw [tier_of_available available] at differs
      obtain ⟨backend, swapped, kept⟩ := VersionChecked.swap_differs
        store.backend key expectedVal newVal differs
      refine ⟨{ store with backend }, ?_, ?_⟩
      · rw [compareAndSwap_of_available available, swapped]
      · rw [valueAt_with_backend, kept]
        exact Function.update_eq_self _ _
  | false =>
      rw [tier_of_unavailable available] at differs
      obtain ⟨fallback, swapped, kept⟩ := VersionChecked.swap_differs
        store.fallback key expectedVal newVal differs
      refine ⟨{ store with fallback }, ?_, ?_⟩
      · rw [compareAndSwap_of_unavailable available, swapped]
      · rw [valueAt_with_fallback, kept]
        exact Function.update_eq_self _ _

/-- `expire` forgets the value in the store it is sent to. -/
theorem valueAt_expire (key : WindowKey) :
    (StateStore.expire store key).2.valueAt key =
      Function.update (store.valueAt key) store.tier {} := by
  cases available : store.available with
  | true =>
      obtain ⟨backend, expired, forgotten⟩ :=
        VersionChecked.expire_eq store.backend key
      rw [tier_of_available available, expire_of_available available, expired,
        valueAt_with_backend, forgotten]
  | false =>
      obtain ⟨fallback, expired, forgotten⟩ :=
        VersionChecked.expire_eq store.fallback key
      rw [tier_of_unavailable available, expire_of_unavailable available,
        expired, valueAt_with_fallback, forgotten]

end Values

end ExternalWindowStore
end State
end Fre
