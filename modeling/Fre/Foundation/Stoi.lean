import Fre.Foundation.FromChars

/-!
# Reading an integer

`std::stoi` in base ten.  It skips white space, reads an optional sign and the
digits that follow, and throws when there is no digit or when the number is not
one of 32 bits.  What stands after the digits is not looked at.
-/

namespace Foundation
namespace Stoi

open Strtod

/-- The exceptions of `std::stoi`. -/
inductive Failure
  | invalidArgument
  | outOfRange
  deriving DecidableEq, Repr

/-- The number of a sign and digits. -/
def signed (negative : Bool) (digits : List Nat) : Int :=
  if negative then -(Nat.ofDigits 10 digits.reverse : Nat)
  else (Nat.ofDigits 10 digits.reverse : Nat)

/-- `std::stoi`. -/
def stoi (text : List Char) : Except Failure Int32 :=
  let (negative, afterSign) := readSign (text.dropWhile isSpace)
  let digits := (readDigits 10 afterSign).1
  if digits = [] then .error .invalidArgument
  else if -2 ^ 31 ≤ signed negative digits ∧ signed negative digits < 2 ^ 31 then
    .ok (Int32.ofInt (signed negative digits))
  else .error .outOfRange

/-- The text starts with a number of 32 bits: white space, an optional sign and
digits, which do not go on. -/
structure StartsWithInt (text blanks sign digits rest : List Char) : Prop where
  split : text = blanks ++ (sign ++ (digits ++ rest))
  areBlanks : ∀ character ∈ blanks, isSpace character = true
  isSign : sign = [] ∨ sign = ['+'] ∨ sign = ['-']
  isDigits : Digits 10 digits
  nonempty : digits ≠ []
  ends : NoDigit 10 rest
  fits : -2 ^ 31 ≤ signed (isMinus sign) (digitValues 10 digits) ∧
    signed (isMinus sign) (digitValues 10 digits) < 2 ^ 31

theorem readSign_of_startsWithInt
    {text blanks sign digits rest : List Char}
    (starts : StartsWithInt text blanks sign digits rest) :
    readSign (text.dropWhile isSpace) = (isMinus sign, digits ++ rest) := by
  obtain ⟨first, others, rfl⟩ := List.exists_cons_of_ne_nil starts.nonempty
  have startsNumber :=
    startsNumber_of_isDigit (starts.isDigits first List.mem_cons_self)
  rw [starts.split, List.cons_append,
    dropWhile_isSpace_append starts.areBlanks starts.isSign startsNumber,
    readSign_append starts.isSign startsNumber]

/-- The number that the text starts with is read. -/
theorem stoi_of_startsWithInt
    {text blanks sign digits rest : List Char}
    (starts : StartsWithInt text blanks sign digits rest) :
    stoi text =
      .ok (Int32.ofInt (signed (isMinus sign) (digitValues 10 digits))) := by
  have someDigit : digitValues 10 digits ≠ [] := by
    rw [Ne, digitValues_eq_nil_iff starts.isDigits]
    exact starts.nonempty
  rw [stoi, readSign_of_startsWithInt starts]
  simp only [readDigits_append starts.isDigits starts.ends]
  rw [if_neg someDigit, if_pos starts.fits]

/-- `stoi` returns exactly on a text that starts with a number of 32 bits. -/
theorem exists_stoi_iff (text : List Char) :
    (∃ value, stoi text = .ok value) ↔
      ∃ blanks sign digits rest,
        StartsWithInt text blanks sign digits rest := by
  constructor
  · rintro ⟨value, read⟩
    obtain ⟨digits, rest, split, isDigits, ends, readDigits⟩ :=
      exists_readDigits 10 (readSign (text.dropWhile isSpace)).2
    obtain ⟨sign, isSign, minus, signed⟩ :=
      exists_sign (text.dropWhile isSpace)
    simp only [stoi, readDigits, digitValues_eq_nil_iff isDigits, ← minus] at read
    split at read
    next => cases read
    next nonempty =>
      split at read
      next fits =>
        refine ⟨text.takeWhile isSpace, sign, digits, rest, ?_,
          fun _ member => List.mem_takeWhile_imp member, isSign, isDigits,
          nonempty, ends, fits⟩
        rw [← split, ← signed, List.takeWhile_append_dropWhile]
      next => cases read
  · rintro ⟨blanks, sign, digits, rest, starts⟩
    exact ⟨_, stoi_of_startsWithInt starts⟩

end Stoi
end Foundation
