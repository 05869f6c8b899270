import Fre.Foundation.FromChars
import Fre.Foundation.Json
import Mathlib.Data.Nat.Digits.Lemmas

/-!
# JSON texts

A reader for JSON texts.  Blanks may stand around every token, a character of a
string is written plainly or as an escape, and control characters, quotation
marks and backslashes only as escapes.  A string is read up to the first
quotation mark that is not part of an escape, wherever the writer meant it to
end.
-/

namespace Foundation
namespace JsonText

open Strtod

/-- A blank between tokens. -/
def isBlank (character : Char) : Bool :=
  character == ' ' || character == '\t' || character == '\n' ||
    character == '\r'

/-- What follows a character, after blanks. -/
def expect (character : Char) (text : List Char) : Option (List Char) :=
  match text.dropWhile isBlank with
  | [] => none
  | head :: rest => if head = character then some rest else none

/-! ### Strings -/

/-- A number of hexadecimal digits. -/
def readHex : Nat → List Char → Option (List Nat × List Char)
  | 0, text => some ([], text)
  | _ + 1, [] => none
  | count + 1, character :: rest => do
      let digit ← digitValue 16 character
      let (digits, remaining) ← readHex count rest
      some (digit :: digits, remaining)

/-- A code unit of four hexadecimal digits. -/
def readCodeUnit (text : List Char) : Option (Nat × List Char) :=
  (readHex 4 text).map fun (digits, rest) =>
    (Nat.ofDigits 16 digits.reverse, rest)

/-- The character of two surrogates. -/
def ofSurrogates (high low : Nat) : Char :=
  Char.ofNat (0x10000 + (high - 0xD800) * 0x400 + (low - 0xDC00))

/-- The character of a code unit, or of two code units that are surrogates. -/
def readCodePoint (text : List Char) : Option (Char × List Char) := do
  let (unit, rest) ← readCodeUnit text
  if unit < 0xD800 ∨ 0xE000 ≤ unit then some (Char.ofNat unit, rest)
  else if 0xDC00 ≤ unit then none
  else
    match rest with
    | '\\' :: 'u' :: afterMark => do
        let (low, remaining) ← readCodeUnit afterMark
        if 0xDC00 ≤ low ∧ low < 0xE000 then
          some (ofSurrogates unit low, remaining)
        else none
    | _ => none

/-- The character that a letter after a backslash stands for. -/
def escaped (letter : Char) : Option Char :=
  match letter with
  | '"' => some '"'
  | '\\' => some '\\'
  | '/' => some '/'
  | 'b' => some '\x08'
  | 'f' => some '\x0c'
  | 'n' => some '\n'
  | 'r' => some '\r'
  | 't' => some '\t'
  | _ => none

/-- One character of a string, which is not its end. -/
def readCharacter : List Char → Option (Char × List Char)
  | [] => none
  | '\\' :: [] => none
  | '\\' :: letter :: rest =>
      if letter = 'u' then readCodePoint rest
      else (escaped letter).map fun character => (character, rest)
  | character :: rest =>
      if character < ' ' ∨ character = '"' then none
      else some (character, rest)

theorem length_of_readHex
    {count : Nat}
    {text rest : List Char}
    {digits : List Nat}
    (read : readHex count text = some (digits, rest)) :
    rest.length + count = text.length := by
  induction count generalizing text digits with
  | zero =>
      cases read
      rfl
  | succ count inductionHypothesis =>
      match text with
      | [] => cases read
      | character :: text =>
          rw [readHex] at read
          obtain ⟨digit, -, read⟩ := Option.bind_eq_some_iff.mp read
          obtain ⟨⟨others, remaining⟩, readOthers, same⟩ :=
            Option.bind_eq_some_iff.mp read
          cases same
          have shorter := inductionHypothesis readOthers
          rw [List.length_cons]
          omega

theorem length_of_readCodeUnit
    {text rest : List Char}
    {unit : Nat}
    (read : readCodeUnit text = some (unit, rest)) :
    rest.length < text.length := by
  obtain ⟨⟨digits, remaining⟩, readDigits, same⟩ :=
    Option.map_eq_some_iff.mp read
  cases same
  have shorter := length_of_readHex readDigits
  omega

theorem length_of_readCodePoint
    {text rest : List Char}
    {character : Char}
    (read : readCodePoint text = some (character, rest)) :
    rest.length < text.length := by
  obtain ⟨⟨unit, remaining⟩, readUnit, read⟩ := Option.bind_eq_some_iff.mp read
  have shorter := length_of_readCodeUnit readUnit
  dsimp only at read
  split at read
  next =>
    cases read
    exact shorter
  next =>
    split at read
    next => cases read
    next =>
      split at read
      next afterMark =>
        obtain ⟨⟨low, last⟩, readLow, read⟩ := Option.bind_eq_some_iff.mp read
        have lowShorter := length_of_readCodeUnit readLow
        dsimp only at read
        split at read
        next =>
          rw [Option.some_inj, Prod.mk.injEq] at read
          obtain ⟨-, rfl⟩ := read
          simp only [List.length_cons] at shorter
          omega
        next => cases read
      next => cases read

theorem length_of_readCharacter
    {text rest : List Char}
    {character : Char}
    (read : readCharacter text = some (character, rest)) :
    rest.length < text.length := by
  unfold readCharacter at read
  split at read
  next => cases read
  next => cases read
  next letter text =>
    split at read
    next =>
      have shorter := length_of_readCodePoint read
      simp only [List.length_cons]
      omega
    next =>
      obtain ⟨_, -, same⟩ := Option.map_eq_some_iff.mp read
      cases same
      simp only [List.length_cons]
      omega
  next =>
    split at read
    next => cases read
    next =>
      cases read
      exact Nat.lt_succ_self _

/-- The characters of a string after its opening quotation mark, and what
follows its closing one. -/
def readString (text : List Char) : Option (List Char × List Char) :=
  match text with
  | '"' :: rest => some ([], rest)
  | text =>
      match _read : readCharacter text with
      | none => none
      | some (character, rest) =>
          (readString rest).map fun (characters, remaining) =>
            (character :: characters, remaining)
termination_by text.length
decreasing_by exact length_of_readCharacter _read

/-! ### Values -/

/-- The digits after a point, if there is one. -/
def readFraction : List Char → Option (List Nat × List Char)
  | '.' :: afterPoint =>
      let (digits, rest) := readDigits 10 afterPoint
      if digits = [] then none else some (digits, rest)
  | text => some ([], text)

/-- A number, an integer if it has neither a fraction nor an exponent. -/
def readNumber (text : List Char) : Option (Json × List Char) :=
  let (negative, afterSign) := readMinus text
  let (whole, afterWhole) := readDigits 10 afterSign
  if whole = [] ∨ (whole.head? = some 0 ∧ whole ≠ [0]) then none
  else
    (readFraction afterWhole).map fun (fraction, afterFraction) =>
      let (exponent, rest) := readExponent 'e' 'E' afterFraction
      if rest = afterWhole then
        let magnitude : Int := Nat.ofDigits 10 whole.reverse
        (.integer (if negative then -magnitude else magnitude), rest)
      else
        let magnitude := (ofDigits 10 whole +
          ofDigits 10 fraction / 10 ^ fraction.length) * 10 ^ exponent
        (.float (if negative then -magnitude else magnitude), rest)

/-- One of the three words. -/
def readWord (text : List Char) : Option (Json × List Char) :=
  match text with
  | 't' :: 'r' :: 'u' :: 'e' :: rest => some (.boolean true, rest)
  | 'f' :: 'a' :: 'l' :: 's' :: 'e' :: rest => some (.boolean false, rest)
  | 'n' :: 'u' :: 'l' :: 'l' :: rest => some (.null, rest)
  | _ => none

/-- What follows an element of an array or a member of an object: the closing
bracket, or a comma and more of the same. -/
def readMore {α : Type} (closing : Char)
    (more : List Char → Option (List α × List Char)) (first : α)
    (text : List Char) : Option (List α × List Char) :=
  match expect closing text with
  | some rest => some ([first], rest)
  | none => do
      let next ← expect ',' text
      let (others, rest) ← more next
      some (first :: others, rest)

mutual

/-- A value and what follows it.  Each nested value and each further element or
member takes one unit of fuel. -/
def readValue : Nat → List Char → Option (Json × List Char)
  | 0, _ => none
  | fuel + 1, text =>
      match text.dropWhile isBlank with
      | '"' :: rest => do
          let (characters, remaining) ← readString rest
          some (.string (String.ofList characters), remaining)
      | '[' :: rest =>
          match expect ']' rest with
          | some remaining => some (.array [], remaining)
          | none => do
              let (elements, remaining) ← readElements fuel rest
              some (.array elements, remaining)
      | '\x7b' :: rest =>
          match expect '\x7d' rest with
          | some remaining => some (.object [], remaining)
          | none => do
              let (members, remaining) ← readMembers fuel rest
              some (.object members, remaining)
      | token => (readWord token).or (readNumber token)

/-- The elements of an array up to its end. -/
def readElements : Nat → List Char → Option (List Json × List Char)
  | 0, _ => none
  | fuel + 1, text => do
      let (element, afterElement) ← readValue fuel text
      readMore ']' (readElements fuel) element afterElement

/-- The members of an object up to its end. -/
def readMembers : Nat → List Char → Option (List (String × Json) × List Char)
  | 0, _ => none
  | fuel + 1, text => do
      let afterQuote ← expect '"' text
      let (name, afterName) ← readString afterQuote
      let afterColon ← expect ':' afterName
      let (value, afterValue) ← readValue fuel afterColon
      readMore '\x7d' (readMembers fuel) (String.ofList name, value) afterValue

end

/-- The text is a JSON text for the value. -/
def Denotes (text : String) (json : Json) : Prop :=
  ∃ fuel rest, readValue fuel text.toList = some (json, rest) ∧
    rest.all isBlank = true

/-! ### Plain strings -/

/-- The character may stand in a string as it is. -/
def isPlain (character : Char) : Bool :=
  !(decide (character < ' ') || character == '"' || character == '\\')

/-- All characters of the text may stand in a string as they are. -/
def Plain (text : List Char) : Prop :=
  ∀ character ∈ text, isPlain character = true

instance (text : List Char) : Decidable (Plain text) :=
  List.decidableBAll _ text

theorem isPlain_iff
    (character : Char) :
    isPlain character = true ↔
      ¬ character < ' ' ∧ character ≠ '"' ∧ character ≠ '\\' := by
  simp [isPlain, and_assoc]

theorem readCharacter_of_isPlain
    {character : Char}
    (plain : isPlain character = true)
    (rest : List Char) :
    readCharacter (character :: rest) = some (character, rest) := by
  obtain ⟨notControl, notQuote, notBackslash⟩ := (isPlain_iff character).mp plain
  unfold readCharacter
  split
  next same => cases same
  next same =>
    cases same
    exact absurd rfl notBackslash
  next same =>
    cases same
    exact absurd rfl notBackslash
  next same =>
    cases same
    rw [if_neg fun bad => bad.elim notControl notQuote]

theorem isPlain_of_readCharacter
    {first character : Char}
    {text rest : List Char}
    (notBackslash : first ≠ '\\')
    (read : readCharacter (first :: text) = some (character, rest)) :
    isPlain first = true := by
  unfold readCharacter at read
  split at read
  next same => cases same
  next same =>
    cases same
    exact absurd rfl notBackslash
  next same =>
    cases same
    exact absurd rfl notBackslash
  next same =>
    cases same
    split at read
    next => cases read
    next allowed =>
      rw [isPlain_iff]
      exact ⟨fun control => allowed (.inl control),
        fun quote => allowed (.inr quote), notBackslash⟩

theorem readString_quote
    (rest : List Char) :
    readString ('"' :: rest) = some ([], rest) := by
  rw [readString]

/-- A string goes on with a character that is read. -/
theorem readString_of_readCharacter
    {text rest : List Char}
    {character : Char}
    (read : readCharacter text = some (character, rest)) :
    readString text = (readString rest).map fun (characters, remaining) =>
      (character :: characters, remaining) := by
  rw [readString]
  · split
    next nothing =>
      rw [read] at nothing
      cases nothing
    next other remaining otherRead =>
      rw [read] at otherRead
      cases otherRead
      rfl
  · rintro others rfl
    simp [readCharacter] at read

theorem readString_eq_none
    {first : Char}
    {text : List Char}
    (notQuote : first ≠ '"')
    (nothing : readCharacter (first :: text) = none) :
    readString (first :: text) = none := by
  rw [readString]
  · split
    next => rfl
    next character rest read =>
      rw [nothing] at read
      cases read
  · intro rest same
    cases same
    exact notQuote rfl

/-- A plain text is read up to its quotation mark. -/
theorem readString_append
    {text : List Char}
    (plain : Plain text)
    (rest : List Char) :
    readString (text ++ '"' :: rest) = some (text, rest) := by
  induction text with
  | nil => exact readString_quote rest
  | cons character text inductionHypothesis =>
      rw [List.cons_append, readString_of_readCharacter
        (readCharacter_of_isPlain (plain character List.mem_cons_self) _),
        inductionHypothesis fun other member =>
          plain other (List.mem_cons_of_mem character member)]
      rfl

/-! ### Where a string ends -/

/-- Hexadecimal digits before a quotation mark are read from the text before
it. -/
theorem exists_of_readHex_append
    {count : Nat}
    {text tail rest : List Char}
    {digits : List Nat}
    (read : readHex count (text ++ '"' :: tail) = some (digits, rest)) :
    ∃ remaining, rest = remaining ++ '"' :: tail ∧
      remaining.length + count = text.length := by
  induction count generalizing text digits with
  | zero =>
      cases read
      exact ⟨text, rfl, rfl⟩
  | succ count inductionHypothesis =>
      match text with
      | [] =>
          rw [List.nil_append, readHex] at read
          obtain ⟨digit, isDigit, -⟩ := Option.bind_eq_some_iff.mp read
          exact absurd isDigit (by simp [digitValue])
      | character :: text =>
          rw [List.cons_append, readHex] at read
          obtain ⟨digit, -, read⟩ := Option.bind_eq_some_iff.mp read
          obtain ⟨⟨others, middle⟩, readOthers, same⟩ :=
            Option.bind_eq_some_iff.mp read
          cases same
          obtain ⟨remaining, isRest, shorter⟩ := inductionHypothesis readOthers
          refine ⟨remaining, isRest, ?_⟩
          rw [List.length_cons]
          omega

theorem exists_of_readCodeUnit_append
    {text tail rest : List Char}
    {unit : Nat}
    (read : readCodeUnit (text ++ '"' :: tail) = some (unit, rest)) :
    ∃ remaining, rest = remaining ++ '"' :: tail ∧
      remaining.length < text.length := by
  obtain ⟨⟨digits, middle⟩, readDigits, same⟩ := Option.map_eq_some_iff.mp read
  cases same
  obtain ⟨remaining, isRest, shorter⟩ := exists_of_readHex_append readDigits
  exact ⟨remaining, isRest, by omega⟩

theorem exists_of_readCodePoint_append
    {text tail rest : List Char}
    {character : Char}
    (read : readCodePoint (text ++ '"' :: tail) = some (character, rest)) :
    ∃ remaining, rest = remaining ++ '"' :: tail ∧
      remaining.length < text.length := by
  obtain ⟨⟨unit, middle⟩, readUnit, read⟩ := Option.bind_eq_some_iff.mp read
  obtain ⟨remaining, rfl, shorter⟩ := exists_of_readCodeUnit_append readUnit
  dsimp only at read
  split at read
  next =>
    cases read
    exact ⟨remaining, rfl, shorter⟩
  next =>
    split at read
    next => cases read
    next =>
      split at read
      next afterMark isMarked =>
        obtain ⟨⟨low, last⟩, readLow, read⟩ := Option.bind_eq_some_iff.mp read
        have inside : ∃ second, remaining = '\\' :: 'u' :: second ∧
            afterMark = second ++ '"' :: tail := by
          match remaining with
          | [] => cases isMarked
          | [_] => cases isMarked
          | _ :: _ :: second =>
              cases isMarked
              exact ⟨second, rfl, rfl⟩
        obtain ⟨second, rfl, rfl⟩ := inside
        obtain ⟨final, rfl, finalShorter⟩ :=
          exists_of_readCodeUnit_append readLow
        dsimp only at read
        split at read
        next =>
          rw [Option.some_inj, Prod.mk.injEq] at read
          obtain ⟨-, rfl⟩ := read
          refine ⟨final, rfl, ?_⟩
          simp only [List.length_cons] at shorter
          omega
        next => cases read
      next => cases read

/-- The first character of such a string is plain, an escape from the text
before the quotation mark, or a backslash right before the mark. -/
theorem readCharacter_append_cases
    {text tail rest : List Char}
    {character : Char}
    (read : readCharacter (text ++ '"' :: tail) = some (character, rest)) :
    (∃ remaining, text = character :: remaining ∧
        isPlain character = true ∧ rest = remaining ++ '"' :: tail) ∨
      (∃ remaining, rest = remaining ++ '"' :: tail ∧
        remaining.length + 2 ≤ text.length) ∨
      rest = tail := by
  match text with
  | [] => simp [readCharacter] at read
  | first :: text =>
      by_cases backslash : first = '\\'
      · subst backslash
        match text with
        | [] =>
            simp only [List.cons_append, List.nil_append, readCharacter] at read
            rw [if_neg (by decide)] at read
            obtain ⟨_, -, same⟩ := Option.map_eq_some_iff.mp read
            cases same
            exact .inr (.inr rfl)
        | letter :: text =>
            simp only [List.cons_append, readCharacter] at read
            split at read
            next =>
              obtain ⟨remaining, isRest, shorter⟩ :=
                exists_of_readCodePoint_append read
              refine .inr (.inl ⟨remaining, isRest, ?_⟩)
              simp only [List.length_cons]
              omega
            next =>
              obtain ⟨_, -, same⟩ := Option.map_eq_some_iff.mp read
              cases same
              exact .inr (.inl ⟨text, rfl, Nat.le_refl _⟩)
      · have plain := isPlain_of_readCharacter backslash read
        rw [List.cons_append, readCharacter_of_isPlain plain] at read
        cases read
        exact .inl ⟨text, rfl, plain, rfl⟩

/-- What is read of a string whose writer meant it to end at a quotation mark.
Either the text before the mark is plain and read as it is, or the string that
is read is shorter, or the mark is taken for a part of the string. -/
theorem readString_append_cases
    {text tail characters rest : List Char}
    (read : readString (text ++ '"' :: tail) = some (characters, rest)) :
    (Plain text ∧ rest = tail) ∨ characters.length < text.length ∨
      ∃ others, readString tail = some (others, rest) := by
  induction size : text.length using Nat.strong_induction_on generalizing text
    characters with
  | _ length inductionHypothesis =>
      subst size
      match readFirst : readCharacter (text ++ '"' :: tail) with
      | none =>
          match text with
          | [] =>
              rw [List.nil_append, readString_quote] at read
              cases read
              exact .inl ⟨fun _ member => (nomatch member), rfl⟩
          | first :: text =>
              by_cases quote : first = '"'
              · subst quote
                rw [List.cons_append, readString_quote] at read
                cases read
                exact .inr (.inl (Nat.succ_pos _))
              · rw [List.cons_append] at read readFirst
                rw [readString_eq_none quote readFirst] at read
                cases read
      | some (character, middle) =>
          rw [readString_of_readCharacter readFirst] at read
          obtain ⟨⟨others, last⟩, readOthers, same⟩ :=
            Option.map_eq_some_iff.mp read
          cases same
          obtain ⟨remaining, rfl, plain, rfl⟩ | ⟨remaining, rfl, shorter⟩ | rfl :=
            readCharacter_append_cases readFirst
          · obtain ⟨plainRest, atEnd⟩ | shorter | behind :=
              inductionHypothesis remaining.length (Nat.lt_succ_self _) readOthers
                rfl
            · exact .inl ⟨List.forall_mem_cons.mpr ⟨plain, plainRest⟩, atEnd⟩
            · exact .inr (.inl (Nat.succ_lt_succ shorter))
            · exact .inr (.inr behind)
          · obtain ⟨plainRest, -⟩ | othersShorter | behind :=
              inductionHypothesis remaining.length (by omega) readOthers rfl
            · rw [readString_append plainRest] at readOthers
              cases readOthers
              refine .inr (.inl ?_)
              rw [List.length_cons]
              omega
            · refine .inr (.inl ?_)
              rw [List.length_cons]
              omega
            · exact .inr (.inr behind)
          · exact .inr (.inr ⟨others, readOthers⟩)

/-! ### Written numbers -/

theorem isDigit_of_isDigit
    {character : Char}
    (digit : character.isDigit = true) :
    isDigit 10 character = true := by
  have between : '0' ≤ character ∧ character ≤ '9' := by
    simpa [Char.isDigit, Char.le_def] using digit
  rw [isDigit, digitValue, if_pos between]
  rfl

theorem digits_toDigits (number : Nat) :
    Digits 10 (Nat.toDigits 10 number) :=
  fun _ member => isDigit_of_isDigit
    (Nat.isDigit_of_mem_toDigits (by decide) (by decide) member)

theorem digitValue_digitChar
    {digit : Nat}
    (small : digit < 10) :
    digitValue 10 digit.digitChar = some digit := by
  have all : ∀ digit < 10, digitValue 10 (Nat.digitChar digit) = some digit := by
    decide
  exact all digit small

/-- The digits of a written number, most significant first. -/
theorem digitValues_toDigits
    {number : Nat}
    (positive : 0 < number) :
    digitValues 10 (Nat.toDigits 10 number) =
      (Nat.digits 10 number).reverse := by
  induction number using Nat.strong_induction_on with
  | _ number inductionHypothesis =>
      obtain small | large := Nat.lt_or_ge number 10
      · rw [Nat.toDigits_of_lt_base small,
          Nat.digits_of_lt 10 number positive.ne' small]
        simp [digitValues, digitValue_digitChar small]
      · have shorter := inductionHypothesis (number / 10) (by omega) (by omega)
        rw [Nat.toDigits_of_base_le (by decide) large, digitValues,
          List.filterMap_append, ← digitValues, shorter,
          Nat.digits_def' (by decide) positive, List.reverse_cons]
        simp [digitValue_digitChar (Nat.mod_lt number (by decide))]

/-- A written number has no leading zero and the value of its digits. -/
theorem written_toDigits (number : Nat) :
    ¬ (digitValues 10 (Nat.toDigits 10 number) = [] ∨
        (digitValues 10 (Nat.toDigits 10 number)).head? = some 0 ∧
          digitValues 10 (Nat.toDigits 10 number) ≠ [0]) ∧
      Nat.ofDigits (10 : Int)
        (digitValues 10 (Nat.toDigits 10 number)).reverse = number := by
  obtain rfl | positive := Nat.eq_zero_or_pos number
  · refine ⟨by decide, by decide⟩
  · rw [digitValues_toDigits positive, List.reverse_reverse]
    refine ⟨?_, ?_⟩
    · rintro (empty | ⟨leading, -⟩)
      · rw [List.reverse_eq_nil_iff, Nat.digits_eq_nil_iff_eq_zero] at empty
        omega
      · rw [List.head?_reverse] at leading
        have nonempty : Nat.digits 10 number ≠ [] :=
          Nat.digits_ne_nil_iff_ne_zero.mpr positive.ne'
        rw [List.getLast?_eq_some_getLast nonempty, Option.some_inj] at leading
        exact Nat.getLast_digit_ne_zero 10 positive.ne' leading
    · have value := Nat.coe_ofDigits Int 10 (Nat.digits 10 number)
      rw [Nat.ofDigits_digits] at value
      exact value.symm

/-- A character that ends a number. -/
def EndsNumber (mark : Char) : Prop :=
  isDigit 10 mark = false ∧ mark ≠ '.' ∧ mark ≠ 'e' ∧ mark ≠ 'E'

/-- A written number is read up to a character that ends it. -/
theorem readNumber_toDigits
    (number : Nat)
    {mark : Char}
    (ends : EndsNumber mark)
    (rest : List Char) :
    readNumber (Nat.toDigits 10 number ++ mark :: rest) =
      some (.integer number, mark :: rest) := by
  obtain ⟨noDigit, notPoint, notLower, notUpper⟩ := ends
  have sign : readMinus (Nat.toDigits 10 number ++ mark :: rest) =
      (false, Nat.toDigits 10 number ++ mark :: rest) := by
    obtain ⟨negative, isNegative, -⟩ | sign :=
      readMinus_cases (Nat.toDigits 10 number ++ mark :: rest)
    · match written : Nat.toDigits 10 number with
      | [] => exact absurd written Nat.toDigits_ne_nil
      | digit :: digits =>
          rw [written] at isNegative
          cases isNegative
          have minusDigit := digits_toDigits number '-' (by simp [written])
          exact absurd minusDigit (by decide)
    · exact sign
  have stops : NoDigit 10 (mark :: rest) := by
    intro character isHead
    cases isHead
    exact noDigit
  have fraction : readFraction (mark :: rest) = some ([], mark :: rest) := by
    unfold readFraction
    split
    next same =>
      cases same
      exact absurd rfl notPoint
    next => rfl
  have exponent : readExponent 'e' 'E' (mark :: rest) = (0, mark :: rest) := by
    rw [readExponent]
    exact if_neg fun present => present.1.elim notLower notUpper
  obtain ⟨noLeadingZero, value⟩ := written_toDigits number
  simp only [readNumber, sign, readDigits_append (digits_toDigits number) stops,
    if_neg noLeadingZero, fraction, exponent, value, Option.map_some, if_true,
    Bool.false_eq_true, if_false]

/-! ### Members of an object -/

theorem expect_cons
    {character : Char}
    (notBlank : isBlank character = false)
    (rest : List Char) :
    expect character (character :: rest) = some rest := by
  rw [expect, List.dropWhile_cons_of_neg (by simp [notBlank])]
  exact if_pos rfl

theorem expect_cons_of_ne
    {character head : Char}
    (notBlank : isBlank head = false)
    (other : head ≠ character)
    (rest : List Char) :
    expect character (head :: rest) = none := by
  rw [expect, List.dropWhile_cons_of_neg (by simp [notBlank])]
  exact if_neg other

section Members

variable {α : Type} {more : List Char → Option (List α × List Char)}
  (first : α) (rest : List Char)

theorem exists_of_readMore
    {closing : Char}
    {first : α}
    {text rest : List Char}
    {values : List α}
    (read : readMore closing more first text = some (values, rest)) :
    ∃ others, values = first :: others := by
  unfold readMore at read
  split at read
  next =>
    cases read
    exact ⟨[], rfl⟩
  next =>
    obtain ⟨next, -, read⟩ := Option.bind_eq_some_iff.mp read
    obtain ⟨⟨others, remaining⟩, -, same⟩ := Option.bind_eq_some_iff.mp read
    cases same
    exact ⟨others, rfl⟩

theorem readMore_closing :
    readMore '\x7d' more first ('\x7d' :: rest) = some ([first], rest) := by
  rw [readMore, expect_cons (by decide)]

theorem readMore_comma :
    readMore '\x7d' more first (',' :: rest) =
      (more rest).bind fun (others, remaining) =>
        some (first :: others, remaining) := by
  rw [readMore, expect_cons_of_ne (by decide) (by decide)]
  simp only [expect_cons (by decide : isBlank ',' = false)]
  rfl

theorem readMore_eq_none
    {head : Char}
    (notBlank : isBlank head = false)
    (notClosing : head ≠ '\x7d')
    (notComma : head ≠ ',') :
    readMore '\x7d' more first (head :: rest) = none := by
  rw [readMore, expect_cons_of_ne notBlank notClosing]
  simp only [expect_cons_of_ne notBlank notComma]
  rfl

end Members

theorem readMembers_member
    (fuel : Nat)
    {name : List Char}
    (plain : Plain name)
    (text : List Char) :
    readMembers (fuel + 1) ('"' :: (name ++ '"' :: ':' :: text)) =
      (readValue fuel text).bind fun (value, afterValue) =>
        readMore '\x7d' (readMembers fuel) (String.ofList name, value)
          afterValue := by
  rw [readMembers, expect_cons (by decide)]
  simp only [Option.bind_eq_bind, Option.bind_some, readString_append plain,
    expect_cons (by decide : isBlank ':' = false)]

theorem readValue_string
    (fuel : Nat)
    (text : List Char) :
    readValue (fuel + 1) ('"' :: text) =
      (readString text).bind fun (characters, rest) =>
        some (.string (String.ofList characters), rest) := by
  rw [readValue, List.dropWhile_cons_of_neg (by decide)]
  rfl

theorem readValue_object
    (fuel : Nat)
    (text : List Char) :
    readValue (fuel + 1) ('\x7b' :: '"' :: text) =
      (readMembers fuel ('"' :: text)).bind fun (members, rest) =>
        some (.object members, rest) := by
  rw [readValue, List.dropWhile_cons_of_neg (by decide)]
  simp only [expect_cons_of_ne (by decide : isBlank '"' = false)
    (by decide : '"' ≠ '\x7d')]
  rfl

theorem readValue_boolean
    (fuel : Nat)
    (value : Bool)
    (rest : List Char) :
    readValue (fuel + 1) ((toString value).toList ++ rest) =
      some (.boolean value, rest) := by
  cases value with
  | true => rfl
  | false => rfl

theorem readWord_eq_none
    {digit : Char}
    (isDigit : isDigit 10 digit = true)
    (rest : List Char) :
    readWord (digit :: rest) = none := by
  unfold readWord
  split
  next same =>
    cases same
    exact absurd isDigit (by decide)
  next same =>
    cases same
    exact absurd isDigit (by decide)
  next same =>
    cases same
    exact absurd isDigit (by decide)
  next => rfl

theorem readValue_number
    (fuel number : Nat)
    {mark : Char}
    (ends : EndsNumber mark)
    (rest : List Char) :
    readValue (fuel + 1) (Nat.toDigits 10 number ++ mark :: rest) =
      some (.integer number, mark :: rest) := by
  have read := readNumber_toDigits number ends rest
  match written : Nat.toDigits 10 number with
  | [] => exact absurd written Nat.toDigits_ne_nil
  | digit :: digits =>
      have isDigit : isDigit 10 digit = true :=
        digits_toDigits number digit (by rw [written]; exact List.mem_cons_self)
      have notBlank : ¬ isBlank digit = true := by
        intro blank
        simp only [isBlank, Bool.or_eq_true, beq_iff_eq] at blank
        obtain ((rfl | rfl) | rfl) | rfl := blank
        · exact absurd isDigit (by decide)
        · exact absurd isDigit (by decide)
        · exact absurd isDigit (by decide)
        · exact absurd isDigit (by decide)
      rw [written] at read
      rw [List.cons_append] at read ⊢
      rw [readValue, List.dropWhile_cons_of_neg notBlank]
      split
      next same =>
        cases same
        exact absurd isDigit (by decide)
      next same =>
        cases same
        exact absurd isDigit (by decide)
      next same =>
        cases same
        exact absurd isDigit (by decide)
      next => rw [readWord_eq_none isDigit, Option.none_or, read]

section Written

variable (fuel : Nat) {name : List Char} (plainName : Plain name)
  (rest : List Char)

include plainName

/-- A member with a plain string, and more members. -/
theorem readMembers_stringMember
    {text : List Char}
    (plainText : Plain text) :
    readMembers (fuel + 2) ('"' :: (name ++ '"' :: ':' :: '"' ::
        (text ++ '"' :: ',' :: rest))) =
      (readMembers (fuel + 1) rest).bind fun (others, remaining) =>
        some ((String.ofList name, .string (String.ofList text)) :: others,
          remaining) := by
  rw [readMembers_member (fuel + 1) plainName, readValue_string,
    readString_append plainText]
  exact readMore_comma _ rest

/-- A member with a truth value, and more members. -/
theorem readMembers_booleanMember
    (value : Bool) :
    readMembers (fuel + 2) ('"' :: (name ++ '"' :: ':' ::
        ((toString value).toList ++ ',' :: rest))) =
      (readMembers (fuel + 1) rest).bind fun (others, remaining) =>
        some ((String.ofList name, .boolean value) :: others, remaining) := by
  rw [readMembers_member (fuel + 1) plainName, readValue_boolean]
  exact readMore_comma _ rest

/-- A member with a number, and more members. -/
theorem readMembers_numberMember
    (number : Nat) :
    readMembers (fuel + 2) ('"' :: (name ++ '"' :: ':' ::
        (Nat.toDigits 10 number ++ ',' :: rest))) =
      (readMembers (fuel + 1) rest).bind fun (others, remaining) =>
        some ((String.ofList name, .integer number) :: others, remaining) := by
  have ends : EndsNumber ',' := by
    refine ⟨?_, ?_, ?_, ?_⟩
    all_goals decide
  rw [readMembers_member (fuel + 1) plainName,
    readValue_number fuel number ends]
  exact readMore_comma _ rest

/-- A last member with a number. -/
theorem readMembers_lastNumber
    (number : Nat) :
    readMembers (fuel + 2) ('"' :: (name ++ '"' :: ':' ::
        (Nat.toDigits 10 number ++ '\x7d' :: rest))) =
      some ([(String.ofList name, .integer number)], rest) := by
  have ends : EndsNumber '\x7d' := by
    refine ⟨?_, ?_, ?_, ?_⟩
    all_goals decide
  rw [readMembers_member (fuel + 1) plainName,
    readValue_number fuel number ends]
  dsimp only [Option.bind_some]
  exact readMore_closing _ rest

end Written

/-- A string member whose value is read as it was written: the value is plain,
and the reader goes on after it.  The quotation mark that ends the value cannot
have been escaped, because the name of the next member would then stand where
a comma or the end of the object must be. -/
theorem plain_of_readMembers
    {fuel : Nat}
    {name text next rest : List Char}
    {head : Char}
    {members : List (String × Json)}
    (plain : Plain name)
    (notBlank : isBlank head = false)
    (notClosing : head ≠ '\x7d')
    (notComma : head ≠ ',')
    (read : readMembers fuel ('"' :: (name ++ '"' :: ':' :: '"' ::
      (text ++ '"' :: ',' :: '"' :: head :: next))) = some (members, rest))
    (asWritten : ∀ value, (String.ofList name, value) ∈ members →
      value = .string (String.ofList text)) :
    Plain text ∧ ∃ remaining others,
      readMembers remaining ('"' :: head :: next) = some (others, rest) ∧
      members = (String.ofList name, .string (String.ofList text)) :: others := by
  match fuel with
  | 0 => cases read
  | 1 =>
      rw [readMembers_member 0 plain] at read
      cases read
  | fuel + 2 =>
      rw [readMembers_member (fuel + 1) plain, readValue_string] at read
      obtain ⟨⟨value, afterValue⟩, readsValue, more⟩ :=
        Option.bind_eq_some_iff.mp read
      obtain ⟨⟨characters, afterText⟩, readsText, same⟩ :=
        Option.bind_eq_some_iff.mp readsValue
      cases same
      dsimp only at more
      obtain ⟨others, rfl⟩ := exists_of_readMore more
      have sameText := asWritten _ List.mem_cons_self
      rw [Json.string.injEq, String.ofList_inj] at sameText
      subst sameText
      obtain ⟨plainText, rfl⟩ | shorter | ⟨within, behind⟩ :=
        readString_append_cases readsText
      · rw [readMore_comma] at more
        obtain ⟨⟨others, remaining⟩, readsOthers, same⟩ :=
          Option.bind_eq_some_iff.mp more
        cases same
        exact ⟨plainText, fuel + 1, others, readsOthers, rfl⟩
      · exact absurd shorter (Nat.lt_irrefl _)
      · have comma : Plain [','] := by
          intro character member
          rw [List.mem_singleton.mp member]
          decide
        have ended := readString_append comma (head :: next)
        rw [List.singleton_append, behind] at ended
        cases ended
        rw [readMore_eq_none _ _ notBlank notClosing notComma] at more
        cases more

end JsonText
end Foundation
