import Fre.Policy.Written

/-!
# Rules before and after further outputs

Six kinds of leaves look at the outputs of the earlier stages.  Each of them
stays true when more outputs follow, since it asks for some output or for the
first one of its name.  A rule in which all of them stand under an even number
of `Not`s stays true with them, and a rule in which all of them stand under an
odd number stays false.
-/

namespace Fre
namespace Policy

open RuleEngine

namespace PolicyContext

/-- The context after further stages. -/
def followedBy (context : PolicyContext) (more : List StageOutput) :
    PolicyContext :=
  { context with stageOutputs := context.stageOutputs ++ more }

variable (context : PolicyContext) (more : List StageOutput)

theorem results_followedBy :
    (context.followedBy more).results =
      context.results ++ more.flatMap StageOutput.evaluatorResults :=
  List.flatMap_append

/-- The first output of a stage stays the first. -/
theorem stageOutput_followedBy
    {stageId : String}
    {output : StageOutput}
    (found : context.stageOutput stageId = some output) :
    (context.followedBy more).stageOutput stageId = some output := by
  unfold stageOutput followedBy at *
  rw [List.find?_append, found]
  rfl

/-- The first result of an evaluator stays the first. -/
theorem firstResult_followedBy
    {evaluatorId : String}
    {result : EvaluatorResult}
    (found : context.firstResult evaluatorId = some result) :
    (context.followedBy more).firstResult evaluatorId = some result := by
  unfold firstResult at *
  rw [results_followedBy, List.find?_append, found]
  rfl

/-- The first score of an evaluator stays the first. -/
theorem firstScore_followedBy
    {evaluatorId : String}
    {score : Single}
    (found : context.firstScore evaluatorId = some score) :
    (context.followedBy more).firstScore evaluatorId = some score := by
  unfold firstScore at *
  obtain ⟨result, first, scored⟩ := Option.bind_eq_some_iff.mp found
  rw [results_followedBy, List.find?_append, first]
  exact scored

end PolicyContext

namespace PolicyRule

/-- The node looks at the outputs of the stages. -/
def readsOutputs : PolicyRule → Bool
  | .stageVerdictIs _ _ => true
  | .evaluatorScoreAbove _ _ => true
  | .evaluatorScoreBetween _ _ _ => true
  | .stageIsDegraded _ => true
  | .evaluatorWasSkipped _ => true
  | .evaluatorReasonIs _ _ => true
  | _ => false

/-- All nodes that look at outputs have the sign: true under an even number of
`Not`s, false under an odd number. -/
def allSigned (sign : Bool) : PolicyRule → Bool
  | .and left right =>
      (match left with
      | some child => child.allSigned sign
      | none => true) &&
        match right with
        | some child => child.allSigned sign
        | none => true
  | .or left right =>
      (match left with
      | some child => child.allSigned sign
      | none => true) &&
        match right with
        | some child => child.allSigned sign
        | none => true
  | .not expr =>
      match expr with
      | some child => child.allSigned (!sign)
      | none => true
  | leaf => !leaf.readsOutputs || sign

/-- More outputs keep a node that looks at them true. -/
theorem readsOutputs_followedBy
    {node : PolicyRule}
    (reads : node.readsOutputs = true)
    {context : PolicyContext}
    {now : Int64}
    (more : List StageOutput)
    (holds : valueAt context now node = some true) :
    valueAt (context.followedBy more) now node = some true := by
  unfold valueAt at *
  cases node with
  | stageVerdictIs stageId verdict =>
      rw [evaluate, Option.some_inj, Option.any_eq_true] at *
      obtain ⟨output, found, passes⟩ := holds
      exact ⟨output, context.stageOutput_followedBy more found, passes⟩
  | evaluatorScoreAbove evaluatorId threshold =>
      rw [evaluate, Option.some_inj] at *
      rw [PolicyContext.results_followedBy, List.any_append, holds]
      rfl
  | evaluatorScoreBetween evaluatorId lo hi =>
      rw [evaluate, Option.some_inj, Bool.and_eq_true, Option.any_eq_true] at *
      obtain ⟨ordered, score, found, passes⟩ := holds
      exact ⟨ordered, score, context.firstScore_followedBy more found, passes⟩
  | stageIsDegraded stageId =>
      rw [evaluate, Option.some_inj, Option.any_eq_true] at *
      obtain ⟨output, found, passes⟩ := holds
      exact ⟨output, context.stageOutput_followedBy more found, passes⟩
  | evaluatorWasSkipped evaluatorId =>
      rw [evaluate, Option.some_inj, Option.any_eq_true] at *
      obtain ⟨result, found, passes⟩ := holds
      exact ⟨result, context.firstResult_followedBy more found, passes⟩
  | evaluatorReasonIs evaluatorId reasonCode =>
      rw [evaluate, Option.some_inj, Option.any_eq_true] at *
      obtain ⟨result, found, passes⟩ := holds
      exact ⟨result, context.firstResult_followedBy more found, passes⟩
  | _ => exact absurd reads Bool.false_ne_true

end PolicyRule

namespace RuleEngine

section Operands

variable {context : PolicyContext} {now : Int64} {left right : PolicyRule}

theorem valueAt_and_eq_true_iff :
    valueAt context now (.and (some left) (some right)) = some true ↔
      valueAt context now left = some true ∧
        valueAt context now right = some true := by
  rw [valueAt_and]
  split
  next leftTrue => simp [leftTrue]
  next leftOther => simp [leftOther]

theorem valueAt_and_eq_false_iff :
    valueAt context now (.and (some left) (some right)) = some false ↔
      valueAt context now left = some false ∨
        valueAt context now left = some true ∧
          valueAt context now right = some false := by
  rw [valueAt_and]
  split
  next leftTrue => simp [leftTrue]
  next leftOther => simp [leftOther]

theorem valueAt_or_eq_true_iff :
    valueAt context now (.or (some left) (some right)) = some true ↔
      valueAt context now left = some true ∨
        valueAt context now left = some false ∧
          valueAt context now right = some true := by
  rw [valueAt_or]
  split
  next leftFalse => simp [leftFalse]
  next leftOther => simp [leftOther]

theorem valueAt_or_eq_false_iff :
    valueAt context now (.or (some left) (some right)) = some false ↔
      valueAt context now left = some false ∧
        valueAt context now right = some false := by
  rw [valueAt_or]
  split
  next leftFalse => simp [leftFalse]
  next leftOther => simp [leftOther]

theorem valueAt_not_eq_iff (value : Bool) :
    valueAt context now (.not (some left)) = some value ↔
      valueAt context now left = some (!value) := by
  rw [valueAt_not, Option.map_eq_some_iff]
  constructor
  · rintro ⟨inner, evaluated, rfl⟩
    rw [evaluated, Bool.not_not]
  · intro evaluated
    exact ⟨_, evaluated, Bool.not_not value⟩

end Operands

end RuleEngine

namespace PolicyRule

/-- A leaf that does not look at outputs has the same value after more of
them. -/
theorem valueAt_followedBy_of_not_reads
    {leaf : PolicyRule}
    (isLeaf : leaf.isLeaf = true)
    (blind : leaf.readsOutputs = false)
    (context : PolicyContext)
    (more : List StageOutput)
    (now : Int64) :
    valueAt (context.followedBy more) now leaf = valueAt context now leaf := by
  cases leaf with
  | and left right => exact absurd isLeaf Bool.false_ne_true
  | or left right => exact absurd isLeaf Bool.false_ne_true
  | not expr => exact absurd isLeaf Bool.false_ne_true
  | stageVerdictIs stageId verdict => exact absurd blind.symm Bool.false_ne_true
  | evaluatorScoreAbove evaluatorId threshold =>
      exact absurd blind.symm Bool.false_ne_true
  | evaluatorScoreBetween evaluatorId lo hi =>
      exact absurd blind.symm Bool.false_ne_true
  | stageIsDegraded stageId => exact absurd blind.symm Bool.false_ne_true
  | evaluatorWasSkipped evaluatorId => exact absurd blind.symm Bool.false_ne_true
  | evaluatorReasonIs evaluatorId reasonCode =>
      exact absurd blind.symm Bool.false_ne_true
  | _ => rfl

/-- Nor do they turn a leaf round that looks at them, from true to false. -/
theorem allSigned_leaf_followedBy
    {leaf : PolicyRule}
    (isLeaf : leaf.isLeaf = true)
    {sign : Bool}
    (signed : (!leaf.readsOutputs || sign) = true)
    {context : PolicyContext}
    {now : Int64}
    (more : List StageOutput)
    (evaluated : valueAt context now leaf = some sign) :
    valueAt (context.followedBy more) now leaf ≠ some (!sign) := by
  cases reads : leaf.readsOutputs with
  | true =>
      obtain rfl : sign = true := by simpa [reads] using signed
      rw [readsOutputs_followedBy reads more evaluated]
      simp
  | false =>
      rw [valueAt_followedBy_of_not_reads isLeaf reads, evaluated]
      simp

section Operands

variable {context later : PolicyContext} {now : Int64}
  {left right : PolicyRule} {sign : Bool}

/-- A conjunction is turned round only with one of its operands. -/
theorem and_stays
    (leftStays : valueAt context now left = some sign →
      valueAt later now left ≠ some (!sign))
    (rightStays : valueAt context now right = some sign →
      valueAt later now right ≠ some (!sign))
    (evaluated :
      valueAt context now (.and (some left) (some right)) = some sign) :
    valueAt later now (.and (some left) (some right)) ≠ some (!sign) := by
  cases sign with
  | true =>
      rw [valueAt_and_eq_true_iff] at evaluated
      rw [Bool.not_true, ne_eq, valueAt_and_eq_false_iff]
      rintro (leftFalse | ⟨-, rightFalse⟩)
      · exact leftStays evaluated.1 leftFalse
      · exact rightStays evaluated.2 rightFalse
  | false =>
      rw [valueAt_and_eq_false_iff] at evaluated
      rw [Bool.not_false, ne_eq, valueAt_and_eq_true_iff]
      rintro ⟨leftTrue, rightTrue⟩
      rcases evaluated with leftFalse | ⟨-, rightFalse⟩
      · exact leftStays leftFalse leftTrue
      · exact rightStays rightFalse rightTrue

/-- A disjunction is turned round only with one of its operands. -/
theorem or_stays
    (leftStays : valueAt context now left = some sign →
      valueAt later now left ≠ some (!sign))
    (rightStays : valueAt context now right = some sign →
      valueAt later now right ≠ some (!sign))
    (evaluated :
      valueAt context now (.or (some left) (some right)) = some sign) :
    valueAt later now (.or (some left) (some right)) ≠ some (!sign) := by
  cases sign with
  | true =>
      rw [valueAt_or_eq_true_iff] at evaluated
      rw [Bool.not_true, ne_eq, valueAt_or_eq_false_iff]
      rintro ⟨leftFalse, rightFalse⟩
      rcases evaluated with leftTrue | ⟨-, rightTrue⟩
      · exact leftStays leftTrue leftFalse
      · exact rightStays rightTrue rightFalse
  | false =>
      rw [valueAt_or_eq_false_iff] at evaluated
      rw [Bool.not_false, ne_eq, valueAt_or_eq_true_iff]
      rintro (leftTrue | ⟨-, rightTrue⟩)
      · exact leftStays evaluated.1 leftTrue
      · exact rightStays evaluated.2 rightTrue

end Operands

/-- More outputs do not turn a rule round whose nodes about them all have the
sign of its value. -/
theorem allSigned_followedBy
    {context : PolicyContext}
    {now : Int64}
    (more : List StageOutput)
    {rule : PolicyRule}
    {sign : Bool}
    (signed : rule.allSigned sign = true)
    (evaluated : valueAt context now rule = some sign) :
    valueAt (context.followedBy more) now rule ≠ some (!sign) := by
  have unchanged : valueAt (context.followedBy more) now rule = some sign →
      valueAt (context.followedBy more) now rule ≠ some (!sign) := by
    intro same
    rw [same]
    simp
  cases rule with
  | and left right =>
      -- Without an operand the value is fixed.
      cases left with
      | none => exact unchanged evaluated
      | some left =>
          cases right with
          | none => exact unchanged evaluated
          | some right =>
              rw [allSigned, Bool.and_eq_true] at signed
              exact and_stays (allSigned_followedBy more signed.1)
                (allSigned_followedBy more signed.2) evaluated
  | or left right =>
      cases left with
      | none => exact unchanged evaluated
      | some left =>
          cases right with
          | none => exact unchanged evaluated
          | some right =>
              rw [allSigned, Bool.and_eq_true] at signed
              exact or_stays (allSigned_followedBy more signed.1)
                (allSigned_followedBy more signed.2) evaluated
  | not expr =>
      cases expr with
      | none => exact unchanged evaluated
      | some expr =>
          rw [valueAt_not_eq_iff] at evaluated
          rw [ne_eq, valueAt_not_eq_iff]
          exact allSigned_followedBy more signed evaluated
  | valueless => exact absurd evaluated (by simp [valueAt, evaluate])
  | _ => exact allSigned_leaf_followedBy rfl signed more evaluated

end PolicyRule
end Policy
end Fre
