import Mathlib.Data.List.Basic

/-!
# Texts joined by a separator

A list cut at its first or at its last separator gives back the two parts,
provided the part on that side has no separator of its own.
-/

namespace Foundation
namespace Separators

/-- The parts around the first separator. -/
theorem append_cons_inj
    {separator : α}
    {left right leftRest rightRest : List α}
    (leftFree : separator ∉ left)
    (rightFree : separator ∉ right)
    (same : left ++ separator :: leftRest = right ++ separator :: rightRest) :
    left = right ∧ leftRest = rightRest := by
  induction left generalizing right with
  | nil =>
      cases right with
      | nil => exact ⟨rfl, (List.cons.inj same).2⟩
      | cons first rest =>
          have here := (List.cons.inj same).1
          exact absurd (here ▸ List.mem_cons_self) rightFree
  | cons first rest inductionHypothesis =>
      cases right with
      | nil =>
          have here := (List.cons.inj same).1
          exact absurd (here ▸ List.mem_cons_self) leftFree
      | cons otherFirst otherRest =>
          obtain ⟨sameFirst, sameRest⟩ := List.cons.inj same
          obtain ⟨parts, rests⟩ := inductionHypothesis
            (fun member => leftFree (List.mem_cons_of_mem first member))
            (fun member => rightFree (List.mem_cons_of_mem otherFirst member))
            sameRest
          exact ⟨by rw [sameFirst, parts], rests⟩

/-- The parts around the last separator. -/
theorem append_cons_inj_last
    {separator : α}
    {left right leftRest rightRest : List α}
    (leftFree : separator ∉ leftRest)
    (rightFree : separator ∉ rightRest)
    (same : left ++ separator :: leftRest = right ++ separator :: rightRest) :
    left = right ∧ leftRest = rightRest := by
  have reversed : leftRest.reverse ++ separator :: left.reverse =
      rightRest.reverse ++ separator :: right.reverse := by
    simpa using congrArg List.reverse same
  obtain ⟨rests, parts⟩ := append_cons_inj (by simpa using leftFree)
    (by simpa using rightFree) reversed
  exact ⟨List.reverse_injective parts, List.reverse_injective rests⟩

/-- A symbol other than a digit separates decimal numbers. -/
theorem not_mem_toDigits
    {separator : Char}
    (notDigit : ¬separator.isDigit)
    (number : Nat) :
    separator ∉ Nat.toDigits 10 number := by
  intro member
  exact notDigit (Nat.isDigit_of_mem_toDigits (by decide) (by decide) member)

theorem toDigits_injective : Function.Injective (Nat.toDigits 10) := by
  intro first second same
  simpa using congrArg (fun digits => Nat.ofDigitChars 10 digits 0) same

end Separators
end Foundation
