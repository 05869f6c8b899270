import Fre.Core.Decision
import Fre.Core.Error
import Fre.Foundation.Machine
import Fre.Foundation.Sorting

/-!
# Decision types

The registry of named decision types with their priorities, a small number
being a high precedence, and of the pairs of types that cannot stand together;
and the active decisions that are read off the output of the policy stage.
-/

namespace Fre

open Foundation

/-- `DecisionTypeDescriptor`. -/
structure DecisionTypeDescriptor where
  id : String
  displayName : String := ""
  priority : UInt32 := 0
  deriving DecidableEq, Repr

/-- `IncompatiblePair`. -/
structure IncompatiblePair where
  typeIdA : String
  typeIdB : String
  deriving DecidableEq, Repr

/-- `DecisionTypeRegistry`, types in ascending order of priority. -/
structure DecisionTypeRegistry where
  types : List DecisionTypeDescriptor := []
  incompatible : List IncompatiblePair := []
  deriving DecidableEq, Repr

namespace DecisionTypeRegistry

/-- `DecisionTypeRegistry::find`. -/
def find (registry : DecisionTypeRegistry) (typeId : String) :
    Option DecisionTypeDescriptor :=
  registry.types.find? fun descriptor => descriptor.id == typeId

/-- Insertion at the lower bound of the priority. -/
def insertByPriority (descriptor : DecisionTypeDescriptor)
    (types : List DecisionTypeDescriptor) : List DecisionTypeDescriptor :=
  let (before, after) := types.span fun existing =>
    existing.priority < descriptor.priority
  before ++ descriptor :: after

/-- `DecisionTypeRegistry::add_type`. -/
def addType (registry : DecisionTypeRegistry)
    (descriptor : DecisionTypeDescriptor) :
    Except ConfigError DecisionTypeRegistry :=
  if descriptor.id.isEmpty then
    .error ⟨.invalidPolicyRule, "decision type id must not be empty"⟩
  else if (registry.find descriptor.id).isSome then
    .error ⟨.invalidPolicyRule,
      "decision type '" ++ descriptor.id ++ "' is already registered"⟩
  else
    .ok { registry with types := insertByPriority descriptor registry.types }

/-- `DecisionTypeRegistry::add_incompatible`. -/
def addIncompatible (registry : DecisionTypeRegistry)
    (typeIdA typeIdB : String) : Except ConfigError DecisionTypeRegistry :=
  if (registry.find typeIdA).isNone then
    .error ⟨.invalidPolicyRule,
      "unknown decision type '" ++ typeIdA ++ "' in incompatible pair"⟩
  else if (registry.find typeIdB).isNone then
    .error ⟨.invalidPolicyRule,
      "unknown decision type '" ++ typeIdB ++ "' in incompatible pair"⟩
  else
    .ok { registry with
      incompatible := registry.incompatible ++ [⟨typeIdA, typeIdB⟩] }

/-- `DecisionTypeRegistry::are_incompatible`. -/
def areIncompatible (registry : DecisionTypeRegistry) (lhs rhs : String) :
    Bool :=
  registry.incompatible.any fun pair =>
    (pair.typeIdA == lhs && pair.typeIdB == rhs) ||
      (pair.typeIdA == rhs && pair.typeIdB == lhs)

/-- A call that changes the registry. -/
inductive Call
  | addType (descriptor : DecisionTypeDescriptor)
  | addIncompatible (typeIdA typeIdB : String)
  deriving DecidableEq

/-- A successful call; a failed one has no step. -/
def step (registry : DecisionTypeRegistry) :
    Call → Option DecisionTypeRegistry
  | .addType descriptor => (registry.addType descriptor).toOption
  | .addIncompatible typeIdA typeIdB =>
      (registry.addIncompatible typeIdA typeIdB).toOption

/-- A registry filled by successful calls. -/
def Filled (registry : DecisionTypeRegistry) : Prop :=
  ∃ calls, Machine.run step {} calls = some registry

/-- Every declared pair joins registered types. -/
def PairsRegistered (registry : DecisionTypeRegistry) : Prop :=
  ∀ pair ∈ registry.incompatible, (registry.find pair.typeIdA).isSome ∧
    (registry.find pair.typeIdB).isSome

theorem find_id
    {registry : DecisionTypeRegistry}
    {typeId : String}
    {descriptor : DecisionTypeDescriptor}
    (found : registry.find typeId = some descriptor) :
    descriptor.id = typeId := by
  simpa using List.find?_some found

theorem isSome_find_iff
    (registry : DecisionTypeRegistry)
    (typeId : String) :
    (registry.find typeId).isSome ↔
      ∃ descriptor ∈ registry.types, descriptor.id = typeId := by
  rw [find, List.find?_isSome]
  simp

theorem areIncompatible_iff
    (registry : DecisionTypeRegistry)
    (lhs rhs : String) :
    registry.areIncompatible lhs rhs = true ↔
      ⟨lhs, rhs⟩ ∈ registry.incompatible ∨
        ⟨rhs, lhs⟩ ∈ registry.incompatible := by
  unfold areIncompatible
  rw [List.any_eq_true]
  constructor
  · rintro ⟨⟨typeIdA, typeIdB⟩, member, same⟩
    simp only [Bool.or_eq_true, Bool.and_eq_true, beq_iff_eq] at same
    rcases same with ⟨rfl, rfl⟩ | ⟨rfl, rfl⟩
    · exact Or.inl member
    · exact Or.inr member
  · rintro (member | member)
    · exact ⟨_, member, by simp⟩
    · exact ⟨_, member, by simp⟩

end DecisionTypeRegistry

/-- The active decision that a result with a registered type stands for. -/
def ActiveDecision.ofResult (registry : DecisionTypeRegistry)
    (result : EvaluatorResult) : Option ActiveDecision :=
  match result.decisionTypeId with
  | none => none
  | some typeId =>
      (registry.find typeId).map fun descriptor =>
        { decisionTypeId := typeId
          ruleId := result.evaluatorId
          priority := descriptor.priority }

/-- The sort of the active decisions by ascending priority. -/
abbrev ActiveDecisionSort :=
  SortFunction fun decision : ActiveDecision => decision.priority.toNat

/-- `Decision::compute_active_decisions`. -/
def Decision.computeActiveDecisions (sort : ActiveDecisionSort)
    (registry : Option DecisionTypeRegistry) (decision : Decision) : Decision :=
  match registry with
  | none => decision
  | some registry =>
      match decision.stageOutput "policy" with
      | none => decision
      | some policyOut =>
          { decision with
            activeDecisions := sort.sort
              (policyOut.evaluatorResults.filterMap
                (ActiveDecision.ofResult registry)) }

end Fre
