import Fre.Foundation.FloatFormat
import Mathlib.Data.Nat.Digits.Defs

/-!
# Reading a floating-point number

`strtod` of the C library in the default locale.  It skips white space, reads
an optional sign and then the longest decimal, hexadecimal, infinity or
not-a-number form it can, and returns the nearest number of the format with the
characters it has not read.  Without such a form it reads nothing.
-/

namespace Foundation
namespace Strtod

/-- `isspace`. -/
def isSpace (character : Char) : Bool :=
  character == ' ' || ('\t' ≤ character && character ≤ '\r')

/-- The value of a digit in base ten or sixteen. -/
def digitValue (base : Nat) (character : Char) : Option Nat :=
  if '0' ≤ character ∧ character ≤ '9' then
    some (character.toNat - '0'.toNat)
  else if base = 16 ∧ 'a' ≤ character ∧ character ≤ 'f' then
    some (character.toNat - 'a'.toNat + 10)
  else if base = 16 ∧ 'A' ≤ character ∧ character ≤ 'F' then
    some (character.toNat - 'A'.toNat + 10)
  else none

/-- The longest run of digits, and what follows it. -/
def readDigits (base : Nat) : List Char → List Nat × List Char
  | [] => ([], [])
  | character :: rest =>
      match digitValue base character with
      | none => ([], character :: rest)
      | some digit =>
          let (digits, remaining) := readDigits base rest
          (digit :: digits, remaining)

/-- An optional sign; true stands for minus. -/
def readSign : List Char → Bool × List Char
  | '-' :: rest => (true, rest)
  | '+' :: rest => (false, rest)
  | characters => (false, characters)

/-- The number written by a run of digits, most significant digit first. -/
def ofDigits (base : Nat) (digits : List Nat) : ℚ :=
  (Nat.ofDigits base digits.reverse : Nat)

/-- Digits with an optional point, at least one digit in all. -/
def readSignificand (base : Nat) (characters : List Char) :
    Option (ℚ × List Char) :=
  let (whole, afterWhole) := readDigits base characters
  match afterWhole with
  | '.' :: afterPoint =>
      let (fraction, remaining) := readDigits base afterPoint
      if whole = [] ∧ fraction = [] then none
      else
        some (ofDigits base whole +
          ofDigits base fraction / base ^ fraction.length, remaining)
  | _ => if whole = [] then none else some (ofDigits base whole, afterWhole)

/-- An optional exponent after one of the two marks; without a digit after the
mark nothing is read. -/
def readExponent (lower upper : Char) : List Char → Int × List Char
  | [] => (0, [])
  | mark :: rest =>
      let (negative, afterSign) := readSign rest
      let (digits, remaining) := readDigits 10 afterSign
      if (mark = lower ∨ mark = upper) ∧ digits ≠ [] then
        let magnitude : Int := Nat.ofDigits 10 digits.reverse
        (if negative then -magnitude else magnitude, remaining)
      else (0, mark :: rest)

/-- What follows a word, letters compared without case. -/
def afterWord : List Char → List Char → Option (List Char)
  | [], characters => some characters
  | _ :: _, [] => none
  | letter :: word, character :: rest =>
      if character.toLower = letter then afterWord word rest else none

/-- What follows the optional parenthesised text after `nan`. -/
def afterNanText (characters : List Char) : List Char :=
  match characters with
  | '(' :: text =>
      match text.dropWhile fun character =>
          character.isAlphanum || character == '_' with
      | ')' :: remaining => remaining
      | _ => characters
  | _ => characters

/-- The number after the sign. -/
def readMagnitude (format : FloatFormat) (negative : Bool)
    (characters : List Char) : Option (FloatValue × List Char) :=
  let signed (value : ℚ) : FloatValue :=
    format.round (if negative then -value else value)
  let decimal : Option (FloatValue × List Char) :=
    (readSignificand 10 characters).map fun (significand, rest) =>
      let (exponent, remaining) := readExponent 'e' 'E' rest
      (signed (significand * 10 ^ exponent), remaining)
  let hexadecimal : Option (FloatValue × List Char) :=
    match afterWord ['0', 'x'] characters with
    | none => none
    | some digits =>
        (readSignificand 16 digits).map fun (significand, rest) =>
          let (exponent, remaining) := readExponent 'p' 'P' rest
          (signed (significand * 2 ^ exponent), remaining)
  let infinity : Option (FloatValue × List Char) :=
    ((afterWord "infinity".toList characters).or
      (afterWord "inf".toList characters)).map fun remaining =>
        (.infinity negative, remaining)
  let notANumber : Option (FloatValue × List Char) :=
    (afterWord "nan".toList characters).map fun rest =>
      (.nan, afterNanText rest)
  hexadecimal.or (decimal.or (infinity.or notANumber))

end Strtod

/-- `strtod`: the value and the characters that were not read. -/
def strtod (format : FloatFormat) (characters : List Char) :
    FloatValue × List Char :=
  let (negative, afterSign) :=
    Strtod.readSign (characters.dropWhile Strtod.isSpace)
  (Strtod.readMagnitude format negative afterSign).getD
    (.finite 0, characters)

end Foundation
