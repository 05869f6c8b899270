import Fre.Core.DecisionType
import Fre.Foundation.LowerBound

/-!
# The invariant of the registry

`add_type` finds the place of a new type by a binary search, which is right only
because every earlier call kept the types in ascending order of priority; that
the id is new, it finds out by a linear search.  Calls succeed and fail in any
order, and a failed one returns before it changes anything.
-/

namespace Fre
namespace DecisionTypeRegistry

open Foundation

/-! ### Calls with the binary search -/

/-- `types_.insert` at the result of `std::lower_bound`. -/
def insertAtLowerBound (descriptor : DecisionTypeDescriptor)
    (types : List DecisionTypeDescriptor) : List DecisionTypeDescriptor :=
  types.insertIdx
    (LowerBound.lowerBound
      (fun existing => existing.priority < descriptor.priority) types)
    descriptor

/-- `DecisionTypeRegistry::add_type` as it searches. -/
def addTypeAtLowerBound (registry : DecisionTypeRegistry)
    (descriptor : DecisionTypeDescriptor) :
    Except ConfigError DecisionTypeRegistry :=
  if descriptor.id.isEmpty then
    .error ⟨.invalidPolicyRule, "decision type id must not be empty"⟩
  else if (registry.find descriptor.id).isSome then
    .error ⟨.invalidPolicyRule,
      "decision type '" ++ descriptor.id ++ "' is already registered"⟩
  else
    .ok { registry with types := insertAtLowerBound descriptor registry.types }

/-- The registry after a call, and what the call returns. -/
def settle (registry : DecisionTypeRegistry) :
    Except ConfigError DecisionTypeRegistry →
      DecisionTypeRegistry × Except ConfigError Unit
  | .ok next => (next, .ok ())
  | .error error => (registry, .error error)

/-- A call of one of the two methods. -/
def perform (registry : DecisionTypeRegistry) :
    Call → DecisionTypeRegistry × Except ConfigError Unit
  | .addType descriptor =>
      registry.settle (registry.addTypeAtLowerBound descriptor)
  | .addIncompatible typeIdA typeIdB =>
      registry.settle (registry.addIncompatible typeIdA typeIdB)

/-- A registry with the calls made so far and what they returned. -/
structure Session where
  registry : DecisionTypeRegistry := {}
  log : List (Call × Except ConfigError Unit) := []

/-- One more call. -/
def Session.perform (session : Session) (call : Call) : Session where
  registry := (session.registry.perform call).1
  log := session.log ++ [(call, (session.registry.perform call).2)]

/-- A sequence of calls on a new registry. -/
def performAll (calls : List Call) : Session :=
  calls.foldl Session.perform {}

/-- The descriptor that a call has registered under the id. -/
def registered (typeId : String) :
    Call × Except ConfigError Unit → Option DecisionTypeDescriptor
  | (.addType descriptor, .ok ()) =>
      if descriptor.id = typeId then some descriptor else none
  | _ => none

/-- The descriptor that was first registered under the id. -/
def firstRegistered (log : List (Call × Except ConfigError Unit))
    (typeId : String) : Option DecisionTypeDescriptor :=
  log.findSome? (registered typeId)

/-! ### What the calls keep -/

/-- What holds of a registry between two calls. -/
structure WellFormed (registry : DecisionTypeRegistry) : Prop where
  ascending : registry.types.Pairwise fun first second =>
    first.priority ≤ second.priority
  named : ∀ descriptor ∈ registry.types, descriptor.id ≠ ""
  distinct : (registry.types.map DecisionTypeDescriptor.id).Nodup
  pairsRegistered : registry.PairsRegistered

/-- What a call does to a registry.  A type is put between the types of smaller
priority and the others, a pair at the end.  A call fails when the id of the type
is empty or known, or when a type of the pair is not, and then changes nothing. -/
inductive Effect (registry : DecisionTypeRegistry) :
    Call → DecisionTypeRegistry × Except ConfigError Unit → Prop
  | typeAdded
      {descriptor : DecisionTypeDescriptor}
      {front back : List DecisionTypeDescriptor}
      (named : descriptor.id ≠ "")
      (new : registry.find descriptor.id = none)
      (split : registry.types = front ++ back)
      (smaller : ∀ existing ∈ front, existing.priority < descriptor.priority)
      (others : ∀ existing ∈ back, descriptor.priority ≤ existing.priority) :
      Effect registry (.addType descriptor)
        ({ registry with types := front ++ descriptor :: back }, .ok ())
  | pairAdded
      {typeIdA typeIdB : String}
      (foundA : (registry.find typeIdA).isSome)
      (foundB : (registry.find typeIdB).isSome) :
      Effect registry (.addIncompatible typeIdA typeIdB)
        ({ registry with
            incompatible := registry.incompatible ++ [⟨typeIdA, typeIdB⟩] },
          .ok ())
  | typeRefused
      {descriptor : DecisionTypeDescriptor}
      {error : ConfigError}
      (refused : descriptor.id = "" ∨ (registry.find descriptor.id).isSome) :
      Effect registry (.addType descriptor) (registry, .error error)
  | pairRefused
      {typeIdA typeIdB : String}
      {error : ConfigError}
      (refused : (registry.find typeIdA).isNone ∨
        (registry.find typeIdB).isNone) :
      Effect registry (.addIncompatible typeIdA typeIdB)
        (registry, .error error)

theorem partitioned_of_ascending
    {types : List DecisionTypeDescriptor}
    (ascending : types.Pairwise fun first second =>
      first.priority ≤ second.priority)
    (priority : UInt32) :
    LowerBound.Partitioned
      (fun existing : DecisionTypeDescriptor =>
        decide (existing.priority < priority)) types := by
  refine ascending.imp fun {first second} ordered below => ?_
  rw [decide_eq_true_eq] at below ⊢
  exact UInt32.lt_of_le_of_lt ordered below

/-- On a registry in ascending order the search finds the place that a scan
would find. -/
theorem addTypeAtLowerBound_eq_addType
    {registry : DecisionTypeRegistry}
    (ascending : registry.types.Pairwise fun first second =>
      first.priority ≤ second.priority)
    (descriptor : DecisionTypeDescriptor) :
    registry.addTypeAtLowerBound descriptor = registry.addType descriptor := by
  have inserted : insertAtLowerBound descriptor registry.types =
      insertByPriority descriptor registry.types := by
    rw [insertAtLowerBound, insertByPriority,
      LowerBound.insertIdx_lowerBound
        (partitioned_of_ascending ascending descriptor.priority),
      List.span_eq_takeWhile_dropWhile]
  rw [addTypeAtLowerBound, addType, inserted]

theorem effect_addType
    {registry : DecisionTypeRegistry}
    (wellFormed : registry.WellFormed)
    (descriptor : DecisionTypeDescriptor) :
    Effect registry (.addType descriptor)
      (registry.perform (.addType descriptor)) := by
  rw [perform, addTypeAtLowerBound_eq_addType wellFormed.ascending, addType]
  split
  next isEmpty => exact .typeRefused (.inl (by simpa using isEmpty))
  next notEmpty =>
    split
    next known => exact .typeRefused (.inr known)
    next new =>
      have partitioned :=
        partitioned_of_ascending wellFormed.ascending descriptor.priority
      rw [insertByPriority, List.span_eq_takeWhile_dropWhile]
      refine .typeAdded ?_ ?_ List.takeWhile_append_dropWhile.symm ?_ ?_
      · simpa using notEmpty
      · simpa using new
      · intro existing member
        simpa using List.mem_takeWhile_imp member
      · intro existing member
        simpa using partitioned.dropWhile existing member

theorem effect_addIncompatible
    (registry : DecisionTypeRegistry)
    (typeIdA typeIdB : String) :
    Effect registry (.addIncompatible typeIdA typeIdB)
      (registry.perform (.addIncompatible typeIdA typeIdB)) := by
  rw [perform, addIncompatible]
  split
  next missingA => exact .pairRefused (.inl missingA)
  next foundA =>
    split
    next missingB => exact .pairRefused (.inr missingB)
    next foundB =>
      simp only [Bool.not_eq_true, Option.isNone_eq_false_iff] at foundA foundB
      exact .pairAdded foundA foundB

theorem effect_perform
    {registry : DecisionTypeRegistry}
    (wellFormed : registry.WellFormed)
    (call : Call) :
    Effect registry call (registry.perform call) := by
  cases call with
  | addType descriptor => exact effect_addType wellFormed descriptor
  | addIncompatible typeIdA typeIdB =>
      exact effect_addIncompatible registry typeIdA typeIdB

/-- The linear search after a type was added finds the new type under its id,
and under every other id what it found before. -/
theorem find_typeAdded
    {registry : DecisionTypeRegistry}
    {descriptor : DecisionTypeDescriptor}
    {front back : List DecisionTypeDescriptor}
    (new : registry.find descriptor.id = none)
    (split : registry.types = front ++ back)
    (typeId : String) :
    find { registry with types := front ++ descriptor :: back } typeId =
      if descriptor.id = typeId then some descriptor
      else registry.find typeId := by
  simp only [find, split, List.find?_append, List.find?_cons] at new ⊢
  by_cases same : descriptor.id = typeId
  · subst same
    have missing := (Option.or_eq_none_iff.mp new).1
    simp [missing]
  · rw [if_neg same, beq_false_of_ne same]

theorem isSome_find_typeAdded
    {registry : DecisionTypeRegistry}
    {descriptor : DecisionTypeDescriptor}
    {front back : List DecisionTypeDescriptor}
    (new : registry.find descriptor.id = none)
    (split : registry.types = front ++ back)
    {typeId : String}
    (found : (registry.find typeId).isSome) :
    (find { registry with types := front ++ descriptor :: back }
      typeId).isSome := by
  rw [find_typeAdded new split]
  split
  next => rfl
  next => exact found

theorem ascending_typeAdded
    {types front back : List DecisionTypeDescriptor}
    {descriptor : DecisionTypeDescriptor}
    (ascending : types.Pairwise fun first second =>
      first.priority ≤ second.priority)
    (split : types = front ++ back)
    (smaller : ∀ existing ∈ front, existing.priority < descriptor.priority)
    (others : ∀ existing ∈ back, descriptor.priority ≤ existing.priority) :
    (front ++ descriptor :: back).Pairwise fun first second =>
      first.priority ≤ second.priority := by
  rw [split, List.pairwise_append] at ascending
  obtain ⟨frontAscending, backAscending, across⟩ := ascending
  rw [List.pairwise_append, List.pairwise_cons]
  refine ⟨frontAscending, ⟨others, backAscending⟩, ?_⟩
  intro first inFront second member
  rcases List.mem_cons.mp member with rfl | inBack
  · exact UInt32.le_of_lt (smaller first inFront)
  · exact across first inFront second inBack

theorem distinct_typeAdded
    {registry : DecisionTypeRegistry}
    {descriptor : DecisionTypeDescriptor}
    {front back : List DecisionTypeDescriptor}
    (distinct : (registry.types.map DecisionTypeDescriptor.id).Nodup)
    (new : registry.find descriptor.id = none)
    (split : registry.types = front ++ back) :
    ((front ++ descriptor :: back).map DecisionTypeDescriptor.id).Nodup := by
  have moved : ((front ++ descriptor :: back).map
      DecisionTypeDescriptor.id).Perm
        ((descriptor :: registry.types).map DecisionTypeDescriptor.id) := by
    rw [split]
    exact List.perm_middle.map _
  rw [moved.nodup_iff, List.map_cons, List.nodup_cons]
  refine ⟨?_, distinct⟩
  intro member
  obtain ⟨existing, existingMember, same⟩ := List.mem_map.mp member
  have found := (registry.isSome_find_iff descriptor.id).mpr
    ⟨existing, existingMember, same⟩
  rw [new] at found
  cases found

/-- Every call keeps the registry well formed. -/
theorem Effect.wellFormed
    {registry : DecisionTypeRegistry}
    {call : Call}
    {result : DecisionTypeRegistry × Except ConfigError Unit}
    (before : registry.WellFormed)
    (effect : Effect registry call result) :
    result.1.WellFormed := by
  cases effect with
  | @typeAdded descriptor front back named new split smaller others =>
      refine ⟨?_, ?_, ?_, ?_⟩
      · exact ascending_typeAdded before.ascending split smaller others
      · intro existing member
        rcases List.mem_append.mp member with inFront | inRest
        · exact before.named existing
            (split ▸ List.mem_append_left back inFront)
        · rcases List.mem_cons.mp inRest with rfl | inBack
          · exact named
          · exact before.named existing
              (split ▸ List.mem_append_right front inBack)
      · exact distinct_typeAdded before.distinct new split
      · intro pair member
        obtain ⟨foundA, foundB⟩ := before.pairsRegistered pair member
        exact ⟨isSome_find_typeAdded new split foundA,
          isSome_find_typeAdded new split foundB⟩
  | @pairAdded typeIdA typeIdB foundA foundB =>
      refine ⟨before.ascending, before.named, before.distinct, ?_⟩
      intro pair member
      rcases List.mem_append.mp member with old | added
      · exact before.pairsRegistered pair old
      · obtain rfl := List.mem_singleton.mp added
        exact ⟨foundA, foundB⟩
  | typeRefused => exact before
  | pairRefused => exact before

/-- A step of the registry is a call that succeeds. -/
theorem perform_of_step
    {registry next : DecisionTypeRegistry}
    {call : Call}
    (wellFormed : registry.WellFormed)
    (stepped : registry.step call = some next) :
    registry.perform call = (next, .ok ()) := by
  have ok : ∀ {returned : Except ConfigError DecisionTypeRegistry},
      returned.toOption = some next →
        registry.settle returned = (next, .ok ()) := by
    intro returned succeeded
    cases returned with
    | error error => cases succeeded
    | ok result =>
        cases succeeded
        rfl
  cases call with
  | addType descriptor =>
      rw [perform, addTypeAtLowerBound_eq_addType wellFormed.ascending]
      exact ok stepped
  | addIncompatible typeIdA typeIdB => exact ok stepped

theorem wellFormed_new : WellFormed {} where
  ascending := List.Pairwise.nil
  named := by simp
  distinct := List.nodup_nil
  pairsRegistered := fun _ member => absurd member List.not_mem_nil

/-- A registry that was filled by successful calls is well formed. -/
theorem Filled.wellFormed
    {registry : DecisionTypeRegistry}
    (filled : registry.Filled) :
    registry.WellFormed := by
  obtain ⟨calls, ran⟩ := filled
  refine Machine.invariant_of_run ?_ wellFormed_new ran
  intro before call next wellFormed stepped
  have effect := effect_perform wellFormed call
  rw [perform_of_step wellFormed stepped] at effect
  exact effect.wellFormed wellFormed

/-- The linear search follows the log. -/
theorem Effect.find_eq
    {registry : DecisionTypeRegistry}
    {call : Call}
    {result : DecisionTypeRegistry × Except ConfigError Unit}
    (effect : Effect registry call result)
    (typeId : String) :
    result.1.find typeId =
      (registry.find typeId).or (registered typeId (call, result.2)) := by
  cases effect with
  | @typeAdded descriptor front back named new split smaller others =>
      dsimp only
      rw [find_typeAdded new split, registered]
      split
      next same =>
        rw [← same, new]
        rfl
      next => rw [Option.or_none]
  | pairAdded => exact Option.or_none.symm
  | typeRefused => exact Option.or_none.symm
  | pairRefused => exact Option.or_none.symm

/-! ### Sequences of calls -/

/-- The registry is well formed and finds what the log says. -/
structure Session.Sound (session : Session) : Prop where
  wellFormed : session.registry.WellFormed
  found : ∀ typeId,
    session.registry.find typeId = firstRegistered session.log typeId

theorem sound_new : Session.Sound {} where
  wellFormed := wellFormed_new
  found := fun _ => rfl

theorem Session.Sound.perform
    {session : Session}
    (sound : session.Sound)
    (call : Call) :
    (session.perform call).Sound := by
  have effect := effect_perform sound.wellFormed call
  refine ⟨effect.wellFormed sound.wellFormed, fun typeId => ?_⟩
  change (session.registry.perform call).1.find typeId = _
  rw [effect.find_eq, sound.found]
  simp [firstRegistered, Session.perform, List.findSome?_append]

theorem sound_performAll (calls : List Call) : (performAll calls).Sound := by
  suffices general : ∀ session : Session, session.Sound →
      (calls.foldl Session.perform session).Sound from general {} sound_new
  induction calls with
  | nil => exact fun session sound => sound
  | cons call rest inductionHypothesis =>
      exact fun session sound =>
        inductionHypothesis (session.perform call) (sound.perform call)

/-- The invariant of the registry.  After every sequence of calls, successful
and failed ones in any order, the types are in ascending order of priority,
their ids are not empty and pairwise distinct, and every pair joins registered
types; a search finds what was first registered under the id, or nothing; and
the next call adds its own element, or fails for one of its reasons and changes
nothing. -/
theorem registry_invariant (calls : List Call) :
    (performAll calls).registry.WellFormed ∧
      (∀ typeId, (performAll calls).registry.find typeId =
        firstRegistered (performAll calls).log typeId) ∧
      ∀ call, Effect (performAll calls).registry call
        ((performAll calls).registry.perform call) := by
  have sound := sound_performAll calls
  exact ⟨sound.wellFormed, sound.found, effect_perform sound.wellFormed⟩

/-- Two types and the pair of them; the first type is added twice. -/
def reviewAndBlock : List Call :=
  [.addType ⟨"review", "", 5⟩, .addType ⟨"review", "again", 1⟩,
    .addType ⟨"block", "", 1⟩, .addIncompatible "review" "block"]

/-- All calls but the second succeed, and the search finds what they have
added. -/
theorem registry_invariant_reviewAndBlock :
    let session := performAll reviewAndBlock
    session.log.map (fun entry => entry.2.toBool) = [true, false, true, true] ∧
      session.registry.types = [⟨"block", "", 1⟩, ⟨"review", "", 5⟩] ∧
      session.registry.incompatible = [⟨"review", "block"⟩] ∧
      session.registry.find "review" = some ⟨"review", "", 5⟩ ∧
      session.registry.WellFormed := by
  obtain ⟨wellFormed, found, -⟩ := registry_invariant reviewAndBlock
  refine ⟨by decide, by decide, by decide, ?_, wellFormed⟩
  rw [found]
  decide

end DecisionTypeRegistry
end Fre
