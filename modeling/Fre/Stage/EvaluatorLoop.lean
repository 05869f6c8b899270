import Fre.Foundation.Positions
import Fre.Stage.StageConfig

/-!
# Loops over evaluators

The evaluation stage and the inference stage run one loop: each round appends a
result for the next evaluator, or leaves the loop with an exception.  What
follows from the shape of a round is proved here for both.
-/

namespace Fre
namespace Stage

open Foundation Positions

/-- The loop goes over the evaluators from a position on, and a round appends
what `record` gives at that position. -/
structure EvaluatorLoop
    (record : Nat → EvaluatorFn → Option EvaluatorResult)
    (loop : Nat → List EvaluatorFn → StageOutput → Option StageOutput) :
    Prop where
  finish : ∀ index output, loop index [] output = some output
  round : ∀ index evaluator rest output, ∃ degradedReason,
    loop index (evaluator :: rest) output =
      (record index evaluator).bind fun result =>
        loop (index + 1) rest
          { output with
            evaluatorResults := output.evaluatorResults ++ [result]
            degradedReason := degradedReason }

namespace EvaluatorLoop

variable {record : Nat → EvaluatorFn → Option EvaluatorResult}
  {loop : Nat → List EvaluatorFn → StageOutput → Option StageOutput}

/-- The positions after one more round. -/
theorem shifted
    (record : Nat → EvaluatorFn → Option EvaluatorResult)
    (index : Nat) :
    (fun offset => record (index + 1 + offset)) =
      fun offset => record (index + (offset + 1)) := by
  funext offset
  rw [Nat.add_assoc, Nat.add_comm 1 offset]

/-- A loop that ends has appended one result for each evaluator. -/
theorem results
    (rounds : EvaluatorLoop record loop)
    {evaluators : List EvaluatorFn}
    {index : Nat}
    {output final : StageOutput}
    (ended : loop index evaluators output = some final) :
    final.stageId = output.stageId ∧
      ∃ added, final.evaluatorResults = output.evaluatorResults ++ added ∧
        Recorded (fun offset => record (index + offset)) evaluators added := by
  induction evaluators generalizing index output with
  | nil =>
      rw [rounds.finish, Option.some_inj] at ended
      exact ⟨by rw [ended], [], by simp [ended], recorded_nil.mpr rfl⟩
  | cons evaluator rest inductionHypothesis =>
      obtain ⟨degradedReason, round⟩ := rounds.round index evaluator rest output
      rw [round] at ended
      obtain ⟨result, given, ended⟩ := Option.bind_eq_some_iff.mp ended
      obtain ⟨sameStage, added, appended, others⟩ := inductionHypothesis ended
      rw [shifted] at others
      refine ⟨sameStage, result :: added, by simp [appended], ?_⟩
      exact recorded_cons.mpr ⟨result, added, rfl, given, others⟩

/-- The loop ends exactly when every position gives a result. -/
theorem isSome_iff
    (rounds : EvaluatorLoop record loop)
    (evaluators : List EvaluatorFn)
    (index : Nat)
    (output : StageOutput) :
    (loop index evaluators output).isSome ↔
      ∀ offset evaluator, evaluators[offset]? = some evaluator →
        (record (index + offset) evaluator).isSome := by
  induction evaluators generalizing index output with
  | nil => simp [rounds.finish]
  | cons evaluator rest inductionHypothesis =>
      obtain ⟨degradedReason, round⟩ := rounds.round index evaluator rest output
      rw [round]
      constructor
      · intro ends offset other found
        obtain ⟨final, ended⟩ := Option.isSome_iff_exists.mp ends
        obtain ⟨result, given, ended⟩ := Option.bind_eq_some_iff.mp ended
        have later := (inductionHypothesis (index + 1) _).mp
          (Option.isSome_iff_exists.mpr ⟨final, ended⟩)
        cases offset with
        | zero =>
            rw [List.getElem?_cons_zero, Option.some_inj] at found
            rw [← found, Nat.add_zero, given]
            rfl
        | succ offset =>
            rw [List.getElem?_cons_succ] at found
            rw [Nat.add_comm offset 1, ← Nat.add_assoc]
            exact later offset other found
      · intro gives
        obtain ⟨result, given⟩ := Option.isSome_iff_exists.mp
          (gives 0 evaluator List.getElem?_cons_zero)
        rw [Nat.add_zero] at given
        rw [given, Option.bind_some]
        apply (inductionHypothesis (index + 1) _).mpr
        intro offset other found
        rw [Nat.add_assoc, Nat.add_comm 1 offset]
        exact gives (offset + 1) other (by rw [List.getElem?_cons_succ, found])

end EvaluatorLoop
end Stage
end Fre
