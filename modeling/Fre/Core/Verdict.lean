import Fre.Foundation.FloatFormat

/-!
# Verdicts, evaluator results and stage outputs

The verdicts, the degradation bits and the records that evaluators and stages
return.
-/

namespace Fre

open Foundation

/-- The source's `double`. -/
abbrev Double := FloatValue

/-- The source's `float`. -/
abbrev Single := FloatValue

/-- `Verdict`, from the weakest to the strictest. -/
inductive Verdict
  | pass
  | flag
  | block
  deriving DecidableEq, Repr

namespace Verdict

/-- The number behind the enumerator. -/
def ordinal : Verdict → Nat
  | .pass => 0
  | .flag => 1
  | .block => 2

theorem ordinal_injective : Function.Injective ordinal := by
  intro left right equal
  cases left <;> cases right <;> first | rfl | exact absurd equal (by decide)

instance : LinearOrder Verdict :=
  LinearOrder.lift' ordinal ordinal_injective

/-- `max_verdict`: the stricter of two verdicts. -/
def maxVerdict (left right : Verdict) : Verdict :=
  if left.ordinal < right.ordinal then right else left

theorem maxVerdict_eq_max (left right : Verdict) :
    maxVerdict left right = max left right := by
  cases left <;> cases right <;> rfl

theorem pass_le (verdict : Verdict) : Verdict.pass ≤ verdict := by
  cases verdict <;> decide

@[simp] theorem pass_maxVerdict (verdict : Verdict) :
    maxVerdict .pass verdict = verdict := by
  rw [maxVerdict_eq_max, max_eq_right (pass_le verdict)]

@[simp] theorem maxVerdict_pass (verdict : Verdict) :
    maxVerdict verdict .pass = verdict := by
  rw [maxVerdict_eq_max, max_eq_left (pass_le verdict)]

/-- The loop that keeps the strictest verdict seen, started at `Pass`. -/
def strictest (verdicts : List Verdict) : Verdict :=
  verdicts.foldl maxVerdict .pass

/-- The loop started at any verdict. -/
theorem foldl_maxVerdict
    (verdicts : List Verdict)
    (start : Verdict) :
    verdicts.foldl maxVerdict start = maxVerdict start (strictest verdicts) := by
  unfold strictest
  induction verdicts generalizing start with
  | nil => simp only [List.foldl_nil, maxVerdict_pass]
  | cons verdict rest inductionHypothesis =>
      simp only [List.foldl_cons]
      rw [inductionHypothesis (maxVerdict start verdict),
        inductionHypothesis (maxVerdict .pass verdict)]
      rw [pass_maxVerdict]
      simp only [maxVerdict_eq_max]
      rw [max_assoc]

@[simp] theorem strictest_nil : strictest [] = .pass := rfl

@[simp] theorem strictest_cons
    (verdict : Verdict)
    (rest : List Verdict) :
    strictest (verdict :: rest) = maxVerdict verdict (strictest rest) := by
  change rest.foldl maxVerdict (maxVerdict .pass verdict) = _
  rw [foldl_maxVerdict, pass_maxVerdict]

@[simp] theorem strictest_append (left right : List Verdict) :
    strictest (left ++ right) =
      maxVerdict (strictest left) (strictest right) := by
  change (left ++ right).foldl maxVerdict .pass = _
  rw [List.foldl_append, foldl_maxVerdict]
  rfl

/-- The strictest verdict is `Block` exactly when some verdict is. -/
theorem strictest_eq_block_iff (verdicts : List Verdict) :
    strictest verdicts = .block ↔ Verdict.block ∈ verdicts := by
  induction verdicts with
  | nil => simp
  | cons verdict rest inductionHypothesis =>
      rw [strictest_cons, List.mem_cons, ← inductionHypothesis]
      cases verdict <;> cases strictest rest <;> decide

end Verdict

/-- `CompositionRule`. -/
inductive CompositionRule
  | anyBlock
  | anyFlag
  | unanimous
  | majority
  | weightedScore
  deriving DecidableEq, Repr

/-- `EvaluatorResult`. -/
structure EvaluatorResult where
  evaluatorId : String
  verdict : Verdict := .pass
  reasonCode : Option String := none
  score : Option Single := none
  skipped : Bool := false
  metadata : Option String := none
  decisionTypeId : Option String := none
  deriving DecidableEq

/-- `DegradedReason`, a set of bits. -/
structure DegradedReason where
  bits : UInt16
  deriving DecidableEq, Repr

namespace DegradedReason

/-- `DegradedReason::None`. -/
def none : DegradedReason := ⟨0⟩

/-- `DegradedReason::EvaluatorTimeout`. -/
def evaluatorTimeout : DegradedReason := ⟨1⟩

/-- `DegradedReason::EvaluatorError`. -/
def evaluatorError : DegradedReason := ⟨2⟩

/-- `DegradedReason::EmissionRetryExhausted`. -/
def emissionRetryExhausted : DegradedReason := ⟨8⟩

/-- `DegradedReason::IngestValidationFailed`. -/
def ingestValidationFailed : DegradedReason := ⟨32⟩

/-- The operator `|` of the source. -/
def merge (left right : DegradedReason) : DegradedReason :=
  ⟨left.bits ||| right.bits⟩

theorem merge_merge_self (reason bit : DegradedReason) :
    (reason.merge bit).merge bit = reason.merge bit := by
  unfold merge
  rw [UInt16.or_assoc, UInt16.or_self]

/-- `is_degraded`. -/
def isDegraded (reason : DegradedReason) : Bool := reason != none

end DegradedReason

/-- `StageOutput`. -/
structure StageOutput where
  stageId : String
  verdict : Verdict := .pass
  evaluatorResults : List EvaluatorResult := []
  degradedReason : DegradedReason := .none
  elapsedUs : UInt64 := 0
  deriving DecidableEq

end Fre
