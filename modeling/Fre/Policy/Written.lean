import Fre.Policy.RuleEngine

/-!
# Rules as they are written

A policy is written with the constructors of the node types and of
`PolicyRule`.  The constructors of `And`, `Or` and `Not` are templates over the
types of their arguments.  A template is never instantiated to a constructor
that takes its own class by value, so `Not` given a `Not` is a copy of it: a row
of nested `Not`s collapses into one.  A written expression means what it says
exactly when no such row has an even length.
-/

namespace Fre
namespace Policy

open RuleEngine

namespace PolicyRule

/-- The node has no children and holds a value. -/
def isLeaf : PolicyRule → Bool
  | .and _ _ => false
  | .or _ _ => false
  | .not _ => false
  | .valueless => false
  | _ => true

/-- The copy constructors: children are copied into new objects, null stays
null. -/
def copy : PolicyRule → PolicyRule
  | .and left right =>
      .and
        (match left with
        | some child => some child.copy
        | none => none)
        (match right with
        | some child => some child.copy
        | none => none)
  | .or left right =>
      .or
        (match left with
        | some child => some child.copy
        | none => none)
        (match right with
        | some child => some child.copy
        | none => none)
  | .not expr =>
      .not
        (match expr with
        | some child => some child.copy
        | none => none)
  | leaf => leaf

/-- A copy is equal to the original. -/
@[simp] theorem copy_eq (rule : PolicyRule) : rule.copy = rule := by
  fun_induction copy rule with
  | case1 left right rightSame leftSame =>
      cases left <;> cases right <;> simp_all
  | case2 left right rightSame leftSame =>
      cases left <;> cases right <;> simp_all
  | case3 expr exprSame =>
      cases expr <;> simp_all
  | _ => rfl

/-- A leaf never throws. -/
theorem exists_valueAt_of_isLeaf
    {node : PolicyRule}
    (leaf : node.isLeaf = true)
    (context : PolicyContext)
    (now : Int64) :
    ∃ value, valueAt context now node = some value := by
  cases node with
  | and left right => exact absurd leaf (by simp [isLeaf])
  | or left right => exact absurd leaf (by simp [isLeaf])
  | not expr => exact absurd leaf (by simp [isLeaf])
  | valueless => exact absurd leaf (by simp [isLeaf])
  | _ => exact ⟨_, rfl⟩

end PolicyRule

/-- A written policy expression: a leaf, the three composite nodes with any
expressions for arguments, and an expression wrapped as a `PolicyRule`. -/
inductive Written
  | leaf (node : PolicyRule) (isLeaf : node.isLeaf = true)
  | and (left right : Written)
  | or (left right : Written)
  | not (expr : Written)
  | rule (expr : Written)

/-- The object of an expression, by its static type: a node type, or
`PolicyRule`. -/
inductive Constructed
  | node (value : PolicyRule)
  | rule (value : PolicyRule)

namespace Constructed

/-- The tree of the object. -/
def value : Constructed → PolicyRule
  | .node value => value
  | .rule value => value

/-- The `PolicyRule` made of an argument that is passed by value: a node is put
into the variant, a rule is copied. -/
def toRule (argument : Constructed) : PolicyRule := argument.value.copy

@[simp] theorem value_node (rule : PolicyRule) : (node rule).value = rule := rfl

@[simp] theorem value_rule (rule : PolicyRule) :
    (Constructed.rule rule).value = rule := rfl

@[simp] theorem toRule_eq (argument : Constructed) :
    argument.toRule = argument.value :=
  argument.value.copy_eq

end Constructed

namespace Written

/-- What the constructors build. -/
def construct : Written → Constructed
  | .leaf node _ => .node node
  | .and left right =>
      .node (.and (some left.construct.toRule) (some right.construct.toRule))
  | .or left right =>
      .node (.or (some left.construct.toRule) (some right.construct.toRule))
  | .not expr =>
      match expr.construct with
      -- An argument of type `Not` selects the copy constructor.
      | .node (.not child) => .node (PolicyRule.not child).copy
      | argument => .node (.not (some argument.toRule))
  | .rule expr => .rule expr.construct.toRule

/-- The Boolean meaning of the written expression at one time. -/
def meaning (context : PolicyContext) (now : Int64) : Written → Bool
  | .leaf node _ => (valueAt context now node).getD false
  | .and left right => left.meaning context now && right.meaning context now
  | .or left right => left.meaning context now || right.meaning context now
  | .not expr => !expr.meaning context now
  | .rule expr => expr.meaning context now

/-- The number of `Not`s written directly around one another. -/
def nots : Written → Nat
  | .not expr => expr.nots + 1
  | _ => 0

/-- The expression begins with a row of `Not`s of even length. -/
def EvenNots (written : Written) : Prop :=
  0 < written.nots ∧ written.nots % 2 = 0

instance (written : Written) : Decidable written.EvenNots :=
  inferInstanceAs (Decidable (_ ∧ _))

/-- The arguments of `And`, `Or` and `PolicyRule` in the expression. -/
def operands : Written → List Written
  | .leaf _ _ => []
  | .and left right =>
      (left :: left.operands) ++ (right :: right.operands)
  | .or left right =>
      (left :: left.operands) ++ (right :: right.operands)
  | .not expr => expr.operands
  | .rule expr => expr :: expr.operands

/-- The built object evaluates to the meaning of the expression. -/
def Right (written : Written) : Prop :=
  ∀ context now, valueAt context now written.construct.value =
    some (written.meaning context now)

/-- Only `Not` builds a node of type `Not`. -/
theorem nots_eq_zero_of_construct
    {written : Written}
    (other : ∀ child, written.construct ≠ .node (.not child)) :
    written.nots = 0 := by
  cases written with
  | not expr =>
      unfold construct at other
      split at other
      next child _ =>
        rw [PolicyRule.copy_eq] at other
        exact absurd rfl (other child)
      next => exact absurd rfl (other _)
  | _ => rfl

theorem nots_pos_of_construct
    {written : Written}
    {child : Option PolicyRule}
    (constructed : written.construct = .node (.not child)) :
    0 < written.nots := by
  cases written with
  | leaf node leaf =>
      unfold construct at constructed
      injection constructed with same
      rw [same] at leaf
      exact absurd leaf (by simp [PolicyRule.isLeaf])
  | not expr => exact Nat.succ_pos _
  | and left right => exact absurd constructed (by simp [construct])
  | or left right => exact absurd constructed (by simp [construct])
  | rule expr => exact absurd constructed (by simp [construct])

/-- Another `Not` around a row of them changes the parity of the row and
nothing else. -/
theorem evenNots_not_iff
    {written : Written}
    (positive : 0 < written.nots) :
    (Written.not written).EvenNots ↔ ¬ written.EvenNots := by
  have longer : (Written.not written).nots = written.nots + 1 := rfl
  unfold EvenNots
  omega

/-- An expression whose operands are right evaluates to its meaning, negated if
it begins with an even row of `Not`s. -/
theorem valueAt_construct
    (written : Written)
    (operandsRight : ∀ operand ∈ written.operands, operand.Right)
    (context : PolicyContext)
    (now : Int64) :
    valueAt context now written.construct.value =
      some (decide written.EvenNots ^^ written.meaning context now) := by
  induction written with
  | leaf node leaf =>
      obtain ⟨value, evaluated⟩ :=
        PolicyRule.exists_valueAt_of_isLeaf leaf context now
      simp [construct, Constructed.value, meaning, evaluated, EvenNots, nots]
  | and left right _ _ =>
      have leftRight := operandsRight left (by simp [operands]) context now
      have rightRight := operandsRight right (by simp [operands]) context now
      rw [construct, Constructed.value_node, Constructed.toRule_eq,
        Constructed.toRule_eq, valueAt_and, leftRight, rightRight]
      cases isTrue : left.meaning context now <;>
        simp [meaning, EvenNots, nots, isTrue]
  | or left right _ _ =>
      have leftRight := operandsRight left (by simp [operands]) context now
      have rightRight := operandsRight right (by simp [operands]) context now
      rw [construct, Constructed.value_node, Constructed.toRule_eq,
        Constructed.toRule_eq, valueAt_or, leftRight, rightRight]
      cases isTrue : left.meaning context now <;>
        simp [meaning, EvenNots, nots, isTrue]
  | not expr inductionHypothesis =>
      have inner := inductionHypothesis operandsRight
      unfold construct
      split
      next child constructed =>
        -- The outer `Not` is lost: the object is that of the inner row.
        have positive := nots_pos_of_construct constructed
        rw [constructed] at inner
        rw [PolicyRule.copy_eq]
        rw [inner, meaning]
        by_cases even : expr.EvenNots
        · simp [evenNots_not_iff positive, even]
        · simp [evenNots_not_iff positive, even]
      next argument other =>
        have none : expr.nots = 0 := nots_eq_zero_of_construct other
        rw [Constructed.value_node, Constructed.toRule_eq, valueAt_not, inner]
        simp [EvenNots, nots, none, meaning]
  | rule expr _ =>
      have exprRight := operandsRight expr (by simp [operands]) context now
      rw [construct, Constructed.value_rule, Constructed.toRule_eq, exprRight]
      simp [EvenNots, nots, meaning]

/-- An event without tags. -/
def withoutTags : PolicyContext where
  event := { tenantId := "t", entityId := "e" }
  stageOutputs := []

/-- Among expressions whose operands are right, those without an even row of
`Not`s in front are right. -/
theorem right_iff_of_operands
    {written : Written}
    (operandsRight : ∀ operand ∈ written.operands, operand.Right) :
    written.Right ↔ ¬ written.EvenNots := by
  have evaluated := valueAt_construct written operandsRight
  constructor
  · intro right even
    have same := (evaluated withoutTags 0).symm.trans
      (right withoutTags 0)
    simp [even] at same
  · intro odd context now
    rw [evaluated context now]
    simp [odd]

/-- The expression and its operands. -/
def parts (written : Written) : List Written := written :: written.operands

theorem parts_right_iff_of_operands
    {written : Written}
    (operandsIff : (∀ operand ∈ written.operands, operand.Right) ↔
      ∀ operand ∈ written.operands, ¬ operand.EvenNots) :
    (∀ part ∈ written.parts, part.Right) ↔
      ∀ part ∈ written.parts, ¬ part.EvenNots := by
  rw [parts, List.forall_mem_cons, List.forall_mem_cons, ← operandsIff]
  exact and_congr_left right_iff_of_operands

/-- The operands are right exactly when none of them begins with an even row of
`Not`s. -/
theorem operands_right_iff (written : Written) :
    (∀ operand ∈ written.operands, operand.Right) ↔
      ∀ operand ∈ written.operands, ¬ operand.EvenNots := by
  induction written with
  | leaf node leaf => simp [operands]
  | and left right leftHypothesis rightHypothesis =>
      rw [operands, List.forall_mem_append, List.forall_mem_append]
      exact and_congr (parts_right_iff_of_operands leftHypothesis)
        (parts_right_iff_of_operands rightHypothesis)
  | or left right leftHypothesis rightHypothesis =>
      rw [operands, List.forall_mem_append, List.forall_mem_append]
      exact and_congr (parts_right_iff_of_operands leftHypothesis)
        (parts_right_iff_of_operands rightHypothesis)
  | not expr inductionHypothesis => exact inductionHypothesis
  | rule expr inductionHypothesis =>
      exact parts_right_iff_of_operands inductionHypothesis

/-- One expression evaluates to its meaning when neither it nor one of its operands
begins with an even row of `Not`s.  The converse is for right operands: a wrong
one may be masked, as in an `And` with an operand that is false. -/
theorem right_of_parts
    {written : Written}
    (noneEven : ∀ part ∈ written.parts, ¬ part.EvenNots) :
    written.Right :=
  (parts_right_iff_of_operands (operands_right_iff written)).mpr noneEven written
    List.mem_cons_self

/-- A written expression and every argument of `And`, `Or` and `PolicyRule` in
it evaluate to their meaning, in every context and at every time, exactly when
none of them begins with an even number of `Not`s written directly around one
another. -/
theorem written_means_what_it_says_iff (written : Written) :
    (∀ part ∈ written.parts, ∀ context now,
      (RuleEngine.evaluate context part.construct.value
        (Stream'.const now)).1 = some (part.meaning context now)) ↔
      ∀ part ∈ written.parts, ¬ part.EvenNots :=
  parts_right_iff_of_operands (operands_right_iff written)

/-- `Not{Not{TagExists{"vip"}}}` evaluates to true for an event without tags,
and `TagExists{"vip"}` to false. -/
theorem double_not_inverts :
    (RuleEngine.evaluate withoutTags
        (Written.not (.not (.leaf (.tagExists "vip") rfl))).construct.value
        (Stream'.const 0)).1 = some true ∧
      (Written.not (.not (.leaf (.tagExists "vip") rfl))).meaning withoutTags
        0 = false ∧
      (RuleEngine.evaluate withoutTags
        (Written.leaf (.tagExists "vip") rfl).construct.value
        (Stream'.const 0)).1 = some false := by
  decide

end Written
end Policy
end Fre
