import Mathlib.Data.Set.Function
import Mathlib.Logic.Function.Basic

/-!
# Maps with version-checked writes

A versioned map answers reads, replaces a value when the caller's expected
version is the current one, and forgets entries.  A missing entry reads as a
given initial value.  The module fixes the meaning of these operations as a
plain partial map and settles when the map may be stored under other indices:
an index function is invisible to every client of a set of keys exactly when
it is injective on that set.
-/

namespace Foundation
namespace VersionedMap

/-- The three operations of a client. -/
inductive Op (κ ν : Type)
  | get (key : κ)
  | compareAndSwap (key : κ) (expected new : ν)
  | expire (key : κ)

/-- What an operation returns. -/
inductive Output (ν : Type)
  | value (current : ν)
  | swapped (success : Bool)
  | expired
  deriving DecidableEq

namespace Op

/-- The key an operation is about. -/
def key : Op κ ν → κ
  | .get key => key
  | .compareAndSwap key _ _ => key
  | .expire key => key

/-- The same operation under another index. -/
def map (locate : κ → ι) : Op κ ν → Op ι ν
  | .get key => .get (locate key)
  | .compareAndSwap key expected new =>
      .compareAndSwap (locate key) expected new
  | .expire key => .expire (locate key)

end Op

variable {κ ι ν β : Type} [DecidableEq κ] [DecidableEq ι] [DecidableEq β]
  (version : ν → β) (initial : ν)

/-- Value read at a key. -/
def read (entries : κ → Option ν) (key : κ) : ν :=
  (entries key).getD initial

/-- One operation on a plain map: its output and the map after it. -/
def apply (entries : κ → Option ν) : Op κ ν → Output ν × (κ → Option ν)
  | .get key => (.value (read initial entries key), entries)
  | .compareAndSwap key expected new =>
      if version (read initial entries key) = version expected then
        (.swapped true, Function.update entries key (some new))
      else (.swapped false, entries)
  | .expire key => (.expired, Function.update entries key none)

/-- Outputs of a sequence of operations. -/
def outputs : (κ → Option ν) → List (Op κ ν) → List (Output ν)
  | _, [] => []
  | entries, op :: rest =>
      (apply version initial entries op).1 ::
        outputs (apply version initial entries op).2 rest

section Indexing

variable {locate : κ → ι} {keys : Set κ}
  {entries : κ → Option ν} {located : ι → Option ν}

/-- The located map shows every key of the set the entry of the plain map. -/
def Agrees
    (locate : κ → ι)
    (keys : Set κ)
    (entries : κ → Option ν)
    (located : ι → Option ν) : Prop :=
  ∀ key ∈ keys, located (locate key) = entries key

theorem Agrees.update
    (agrees : Agrees locate keys entries located)
    (injective : Set.InjOn locate keys)
    {key : κ}
    (member : key ∈ keys)
    (entry : Option ν) :
    Agrees locate keys (Function.update entries key entry)
      (Function.update located (locate key) entry) := by
  intro other otherMember
  by_cases same : other = key
  · subst other
    rw [Function.update_self, Function.update_self]
  · have different : locate other ≠ locate key := fun equal =>
      same (injective otherMember member equal)
    rw [Function.update_of_ne same, Function.update_of_ne different]
    exact agrees other otherMember

/-- One operation keeps the agreement and returns the same. -/
theorem Agrees.apply
    (agrees : Agrees locate keys entries located)
    (injective : Set.InjOn locate keys)
    {op : Op κ ν}
    (member : op.key ∈ keys) :
    (VersionedMap.apply version initial located (op.map locate)).1 =
        (VersionedMap.apply version initial entries op).1 ∧
      Agrees locate keys (VersionedMap.apply version initial entries op).2
        (VersionedMap.apply version initial located (op.map locate)).2 := by
  have sameRead {key : κ} (present : key ∈ keys) :
      read initial located (locate key) = read initial entries key := by
    rw [read, read, agrees key present]
  cases op with
  | get key =>
      simp only [Op.map, VersionedMap.apply]
      exact ⟨congrArg Output.value (sameRead member), agrees⟩
  | compareAndSwap key expected new =>
      have present : key ∈ keys := member
      simp only [Op.map, VersionedMap.apply, sameRead present]
      split
      · exact ⟨rfl, agrees.update injective present (some new)⟩
      · exact ⟨rfl, agrees⟩
  | expire key =>
      simp only [Op.map, VersionedMap.apply]
      exact ⟨trivial, agrees.update injective member none⟩

/-- Injective indices cannot be observed. -/
theorem Agrees.outputs
    (agrees : Agrees locate keys entries located)
    (injective : Set.InjOn locate keys)
    {ops : List (Op κ ν)}
    (members : ∀ op ∈ ops, op.key ∈ keys) :
    VersionedMap.outputs version initial located (ops.map (Op.map locate)) =
      VersionedMap.outputs version initial entries ops := by
  induction ops generalizing entries located with
  | nil => rfl
  | cons op rest inductionHypothesis =>
      obtain ⟨sameOutput, nextAgrees⟩ := agrees.apply version initial injective
        (members op List.mem_cons_self)
      simp only [List.map_cons, VersionedMap.outputs, sameOutput]
      rw [inductionHypothesis nextAgrees fun other present =>
        members other (List.mem_cons_of_mem op present)]

/-- Two keys with one index are told apart by a write at one and a read at the
other. -/
theorem outputs_ne_of_same_index
    {key other : κ}
    (different : key ≠ other)
    (same : locate key = locate other)
    {new : ν}
    (newDiffers : new ≠ initial) :
    VersionedMap.outputs version initial (fun _ : ι => none)
        ([Op.compareAndSwap key initial new, Op.get other].map
          (Op.map locate)) ≠
      VersionedMap.outputs version initial (fun _ : κ => none)
        [Op.compareAndSwap key initial new, Op.get other] := by
  intro equal
  simp only [List.map_cons, List.map_nil, Op.map, VersionedMap.outputs,
    VersionedMap.apply, read, same, Option.getD_none, if_true,
    Function.update_self, Function.update_of_ne different.symm,
    Option.getD_some, List.cons.injEq, Output.value.injEq, true_and,
    and_true] at equal
  exact newDiffers equal

/-- An index function is invisible to all clients of a set of keys exactly
when it is injective on the set. -/
theorem outputs_map_eq_iff_injOn
    {new : ν}
    (newDiffers : new ≠ initial) :
    (∀ ops : List (Op κ ν), (∀ op ∈ ops, op.key ∈ keys) →
      VersionedMap.outputs version initial (fun _ : ι => none)
          (ops.map (Op.map locate)) =
        VersionedMap.outputs version initial (fun _ : κ => none) ops) ↔
      Set.InjOn locate keys := by
  constructor
  · intro transparent key keyMember other otherMember same
    by_contra different
    refine outputs_ne_of_same_index version initial different same newDiffers
      (transparent _ ?_)
    intro op present
    simp only [List.mem_cons, List.not_mem_nil, or_false] at present
    rcases present with rfl | rfl
    · exact keyMember
    · exact otherMember
  · intro injective ops members
    have agrees : Agrees locate keys (fun _ : κ => (none : Option ν))
        fun _ : ι => none := fun _ _ => rfl
    exact agrees.outputs version initial injective members

end Indexing

end VersionedMap
end Foundation
