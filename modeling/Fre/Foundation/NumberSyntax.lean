import Fre.Foundation.Strtod
import Mathlib.Data.Char
import Mathlib.Data.List.TakeWhile

/-!
# The written forms of numbers

The grammar of the texts that `strtod` reads as a number, with the value that
each text denotes.  The reader takes the longest form it can; it takes a whole
text exactly when the text is one of the forms.
-/

namespace Foundation
namespace Strtod

/-- The character is a digit of the base. -/
def isDigit (base : Nat) (character : Char) : Bool :=
  (digitValue base character).isSome

/-- All characters are digits of the base. -/
def Digits (base : Nat) (characters : List Char) : Prop :=
  ∀ character ∈ characters, isDigit base character = true

/-- The values of digits. -/
def digitValues (base : Nat) (characters : List Char) : List Nat :=
  characters.filterMap (digitValue base)

/-- Digits with an optional point, at least one digit in all. -/
inductive Significand (base : Nat) : List Char → ℚ → Prop
  | whole {digits : List Char} (isDigits : Digits base digits)
      (nonempty : digits ≠ []) :
      Significand base digits (ofDigits base (digitValues base digits))
  | point {whole fraction : List Char} (isWhole : Digits base whole)
      (isFraction : Digits base fraction)
      (nonempty : ¬ (whole = [] ∧ fraction = [])) :
      Significand base (whole ++ '.' :: fraction)
        (ofDigits base (digitValues base whole) +
          ofDigits base (digitValues base fraction) /
            base ^ (digitValues base fraction).length)

/-- Nothing, or one of the two marks, an optional sign and decimal digits. -/
inductive Exponent (lower upper : Char) : List Char → Int → Prop
  | absent : Exponent lower upper [] 0
  | unsigned {mark : Char} {digits : List Char}
      (marked : mark = lower ∨ mark = upper) (isDigits : Digits 10 digits)
      (nonempty : digits ≠ []) :
      Exponent lower upper (mark :: digits)
        (Nat.ofDigits (10 : Int) (digitValues 10 digits).reverse)
  | plus {mark : Char} {digits : List Char}
      (marked : mark = lower ∨ mark = upper) (isDigits : Digits 10 digits)
      (nonempty : digits ≠ []) :
      Exponent lower upper (mark :: '+' :: digits)
        (Nat.ofDigits (10 : Int) (digitValues 10 digits).reverse)
  | minus {mark : Char} {digits : List Char}
      (marked : mark = lower ∨ mark = upper) (isDigits : Digits 10 digits)
      (nonempty : digits ≠ []) :
      Exponent lower upper (mark :: '-' :: digits)
        (-Nat.ofDigits (10 : Int) (digitValues 10 digits).reverse)

/-- A significand with an exponent of the radix. -/
inductive Scaled (base : Nat) (radix : ℚ) (lower upper : Char) :
    List Char → ℚ → Prop
  | mk {digits scale : List Char} {significand : ℚ} {exponent : Int}
      (isSignificand : Significand base digits significand)
      (isExponent : Exponent lower upper scale exponent) :
      Scaled base radix lower upper (digits ++ scale)
        (significand * radix ^ exponent)

/-- A decimal number. -/
def Decimal : List Char → ℚ → Prop :=
  Scaled 10 10 'e' 'E'

/-- A hexadecimal number. -/
def Hexadecimal (characters : List Char) (value : ℚ) : Prop :=
  ∃ mark body, (mark = 'x' ∨ mark = 'X') ∧ characters = '0' :: mark :: body ∧
    Scaled 16 2 'p' 'P' body value

/-- The characters spell the word, letters compared without case. -/
def Spells (word : String) (characters : List Char) : Prop :=
  characters.map Char.toLower = word.toList

/-- `inf` or `infinity`. -/
def Infinite (characters : List Char) : Prop :=
  Spells "inf" characters ∨ Spells "infinity" characters

/-- `nan` with an optional text in parentheses. -/
def NotANumber (characters : List Char) : Prop :=
  ∃ word text, characters = word ++ text ∧ Spells "nan" word ∧
    (text = [] ∨ ∃ inner, text = '(' :: (inner ++ [')']) ∧
      ∀ character ∈ inner,
        (character.isAlphanum || character == '_') = true)

/-! ### Digits -/

/-- The text does not go on with a digit of the base. -/
def NoDigit (base : Nat) (characters : List Char) : Prop :=
  ∀ character ∈ characters.head?, isDigit base character = false

theorem readDigits_eq
    (base : Nat)
    (characters : List Char) :
    readDigits base characters =
      (digitValues base (characters.takeWhile (isDigit base)),
        characters.dropWhile (isDigit base)) := by
  induction characters with
  | nil => rfl
  | cons character rest inductionHypothesis =>
      rw [readDigits, inductionHypothesis]
      match value : digitValue base character with
      | none => simp [value, isDigit, digitValues]
      | some digit => simp [value, isDigit, digitValues]

/-- What is read is a run of digits that does not go on. -/
theorem exists_readDigits
    (base : Nat)
    (characters : List Char) :
    ∃ digits rest, characters = digits ++ rest ∧ Digits base digits ∧
      NoDigit base rest ∧
      readDigits base characters = (digitValues base digits, rest) := by
  refine ⟨_, _, (List.takeWhile_append_dropWhile).symm, ?_, ?_,
    readDigits_eq base characters⟩
  · intro character member
    exact List.mem_takeWhile_imp member
  · intro character isHead
    have stops := List.head?_dropWhile_not (isDigit base) characters
    rw [isHead] at stops
    exact stops

theorem readDigits_append
    {base : Nat}
    {digits rest : List Char}
    (isDigits : Digits base digits)
    (noDigit : NoDigit base rest) :
    readDigits base (digits ++ rest) = (digitValues base digits, rest) := by
  have stops : rest.takeWhile (isDigit base) = [] ∧
      rest.dropWhile (isDigit base) = rest := by
    match rest with
    | [] => exact ⟨rfl, rfl⟩
    | character :: rest => simp [noDigit character rfl]
  rw [readDigits_eq, List.takeWhile_append_of_pos isDigits,
    List.dropWhile_append_of_pos isDigits, stops.1, stops.2, List.append_nil]

theorem readDigits_digits
    {base : Nat}
    {digits : List Char}
    (isDigits : Digits base digits) :
    readDigits base digits = (digitValues base digits, []) := by
  have noDigit : NoDigit base [] := fun _ isHead => nomatch isHead
  simpa using readDigits_append isDigits noDigit

/-- Digits have no value only if there are none. -/
theorem digitValues_eq_nil_iff
    {base : Nat}
    {digits : List Char}
    (isDigits : Digits base digits) :
    digitValues base digits = [] ↔ digits = [] := by
  rw [digitValues, List.filterMap_eq_nil_iff, List.eq_nil_iff_forall_not_mem]
  constructor
  · intro noValue character member
    have isSome := isDigits character member
    rw [isDigit, noValue character member] at isSome
    cases isSome
  · intro empty character member
    exact absurd member (empty character)

/-! ### Significands -/

theorem noDigit_point
    {base : Nat}
    (rest : List Char) :
    NoDigit base ('.' :: rest) := by
  intro character isHead
  cases isHead
  simp [isDigit, digitValue]

/-- The part that was read as a significand is one. -/
theorem significand_of_readSignificand
    {base : Nat}
    {characters rest : List Char}
    {value : ℚ}
    (read : readSignificand base characters = some (value, rest)) :
    ∃ digits, characters = digits ++ rest ∧ Significand base digits value := by
  obtain ⟨whole, afterWhole, split, isWhole, -, readWhole⟩ :=
    exists_readDigits base characters
  rw [readSignificand, readWhole] at read
  dsimp only at read
  split at read
  next afterPoint =>
    obtain ⟨fraction, remaining, splitFraction, isFraction, -, readFraction⟩ :=
      exists_readDigits base afterPoint
    rw [readFraction] at read
    dsimp only at read
    split at read
    next => cases read
    next nonempty =>
      rw [digitValues_eq_nil_iff isWhole, digitValues_eq_nil_iff isFraction]
        at nonempty
      cases read
      refine ⟨whole ++ '.' :: fraction, ?_, .point isWhole isFraction nonempty⟩
      rw [split, splitFraction, List.append_assoc, List.cons_append]
  next =>
    split at read
    next => cases read
    next nonempty =>
      rw [digitValues_eq_nil_iff isWhole] at nonempty
      cases read
      exact ⟨whole, split, .whole isWhole nonempty⟩

/-- A significand is read up to a character that cannot continue it. -/
theorem readSignificand_append
    {base : Nat}
    {digits rest : List Char}
    {value : ℚ}
    (isSignificand : Significand base digits value)
    (noDigit : NoDigit base rest)
    (noPoint : ∀ character ∈ rest.head?, character ≠ '.') :
    readSignificand base (digits ++ rest) = some (value, rest) := by
  cases isSignificand with
  | whole isDigits nonempty =>
      rw [Ne, ← digitValues_eq_nil_iff isDigits] at nonempty
      rw [readSignificand, readDigits_append isDigits noDigit]
      dsimp only
      rw [if_neg nonempty]
      split
      next afterPoint => exact absurd rfl (noPoint '.' rfl)
      next => rfl
  | @point whole fraction isWhole isFraction nonempty =>
      rw [← digitValues_eq_nil_iff isWhole,
        ← digitValues_eq_nil_iff isFraction] at nonempty
      rw [List.append_assoc, List.cons_append, readSignificand,
        readDigits_append isWhole (noDigit_point _)]
      simp only [readDigits_append isFraction noDigit, if_neg nonempty]

/-! ### Exponents -/

theorem readSign_cases
    (characters : List Char) :
    (∃ rest, characters = '-' :: rest ∧ readSign characters = (true, rest)) ∨
      (∃ rest, characters = '+' :: rest ∧
        readSign characters = (false, rest)) ∨
      readSign characters = (false, characters) := by
  unfold readSign
  split
  next rest => exact .inl ⟨rest, rfl, rfl⟩
  next rest => exact .inr (.inl ⟨rest, rfl, rfl⟩)
  next => exact .inr (.inr rfl)

/-- An exponent that takes the whole text is one. -/
theorem exponent_of_readExponent
    {lower upper : Char}
    {characters : List Char}
    {value : Int}
    (read : readExponent lower upper characters = (value, [])) :
    Exponent lower upper characters value := by
  match characters with
  | [] =>
      cases read
      exact .absent
  | mark :: rest =>
      obtain ⟨digits, remaining, split, isDigits, -, readRest⟩ :=
        exists_readDigits 10 (readSign rest).2
      rw [readExponent] at read
      dsimp only at read
      rw [readRest] at read
      dsimp only at read
      split at read
      next present =>
        obtain ⟨marked, nonempty⟩ := present
        rw [Ne, digitValues_eq_nil_iff isDigits] at nonempty
        rw [Prod.mk.injEq] at read
        obtain ⟨isValue, rfl⟩ := read
        rw [List.append_nil] at split
        rw [← isValue]
        obtain ⟨body, rfl, sign⟩ | ⟨body, rfl, sign⟩ | sign :=
          readSign_cases rest
        · rw [sign] at split ⊢
          cases split
          exact .minus marked isDigits nonempty
        · rw [sign] at split ⊢
          cases split
          exact .plus marked isDigits nonempty
        · rw [sign] at split ⊢
          cases split
          exact .unsigned marked isDigits nonempty
      next => cases read

theorem readSign_of_digits
    {digits : List Char}
    (isDigits : Digits 10 digits) :
    readSign digits = (false, digits) := by
  unfold readSign
  split
  next rest => exact absurd (isDigits '-' List.mem_cons_self) (by decide)
  next rest => exact absurd (isDigits '+' List.mem_cons_self) (by decide)
  next => rfl

theorem readExponent_eq
    {lower upper : Char}
    {characters : List Char}
    {value : Int}
    (isExponent : Exponent lower upper characters value) :
    readExponent lower upper characters = (value, []) := by
  cases isExponent with
  | absent => rfl
  | unsigned marked isDigits nonempty =>
      rw [Ne, ← digitValues_eq_nil_iff isDigits] at nonempty
      rw [readExponent, readSign_of_digits isDigits]
      dsimp only
      rw [readDigits_digits isDigits, if_pos ⟨marked, nonempty⟩]
      rfl
  | plus marked isDigits nonempty =>
      rw [Ne, ← digitValues_eq_nil_iff isDigits] at nonempty
      rw [readExponent, readSign]
      dsimp only
      rw [readDigits_digits isDigits, if_pos ⟨marked, nonempty⟩]
      rfl
  | minus marked isDigits nonempty =>
      rw [Ne, ← digitValues_eq_nil_iff isDigits] at nonempty
      rw [readExponent, readSign]
      dsimp only
      rw [readDigits_digits isDigits, if_pos ⟨marked, nonempty⟩]
      rfl

/-! ### Scaled numbers -/

/-- A significand with an exponent, and what follows them. -/
def readScaled (base : Nat) (radix : ℚ) (lower upper : Char)
    (characters : List Char) : Option (ℚ × List Char) :=
  (readSignificand base characters).map fun (significand, rest) =>
    let (exponent, remaining) := readExponent lower upper rest
    (significand * radix ^ exponent, remaining)

/-- The mark of an exponent cannot continue a significand. -/
def EndsSignificand (base : Nat) (mark : Char) : Prop :=
  isDigit base mark = false ∧ mark ≠ '.'

theorem Exponent.head_eq
    {lower upper : Char}
    {characters : List Char}
    {value : Int}
    (isExponent : Exponent lower upper characters value) :
    ∀ mark ∈ characters.head?, mark = lower ∨ mark = upper := by
  intro mark isHead
  cases isExponent with
  | absent => cases isHead
  | unsigned marked => cases isHead; exact marked
  | plus marked => cases isHead; exact marked
  | minus marked => cases isHead; exact marked

/-- A text is read as a whole exactly when it is a significand with an
exponent. -/
theorem readScaled_eq_some_nil_iff
    {base : Nat}
    {radix : ℚ}
    {lower upper : Char}
    (lowerEnds : EndsSignificand base lower)
    (upperEnds : EndsSignificand base upper)
    (characters : List Char)
    (value : ℚ) :
    readScaled base radix lower upper characters = some (value, []) ↔
      Scaled base radix lower upper characters value := by
  constructor
  · intro read
    obtain ⟨⟨significand, rest⟩, readFirst, readLast⟩ :=
      Option.map_eq_some_iff.mp read
    obtain ⟨digits, rfl, isSignificand⟩ :=
      significand_of_readSignificand readFirst
    rw [Prod.mk.injEq] at readLast
    obtain ⟨rfl, nothingLeft⟩ := readLast
    exact ⟨isSignificand, exponent_of_readExponent (Prod.ext rfl nothingLeft)⟩
  · rintro ⟨isSignificand, isExponent⟩
    have ends : ∀ mark ∈ _, EndsSignificand base mark := fun mark isHead =>
      (isExponent.head_eq mark isHead).elim (fun same => same ▸ lowerEnds)
        fun same => same ▸ upperEnds
    rw [readScaled, readSignificand_append isSignificand
      (fun mark isHead => (ends mark isHead).1)
      fun mark isHead => (ends mark isHead).2]
    simp only [Option.map_some, readExponent_eq isExponent]

theorem decimal_iff
    (characters : List Char)
    (value : ℚ) :
    readScaled 10 10 'e' 'E' characters = some (value, []) ↔
      Decimal characters value :=
  readScaled_eq_some_nil_iff ⟨by decide, by decide⟩ ⟨by decide, by decide⟩ _ _

theorem hexadecimalDigits_iff
    (characters : List Char)
    (value : ℚ) :
    readScaled 16 2 'p' 'P' characters = some (value, []) ↔
      Scaled 16 2 'p' 'P' characters value :=
  readScaled_eq_some_nil_iff ⟨by decide, by decide⟩ ⟨by decide, by decide⟩ _ _

/-! ### Words -/

theorem afterWord_eq_some_iff
    (word characters rest : List Char) :
    afterWord word characters = some rest ↔
      ∃ spelled, characters = spelled ++ rest ∧
        spelled.map Char.toLower = word := by
  induction word generalizing characters with
  | nil =>
      rw [afterWord, Option.some_inj]
      constructor
      · rintro rfl
        exact ⟨[], rfl, rfl⟩
      · rintro ⟨spelled, rfl, isWord⟩
        rw [List.map_eq_nil_iff.mp isWord, List.nil_append]
  | cons letter word inductionHypothesis =>
      match characters with
      | [] =>
          rw [afterWord]
          constructor
          · exact fun impossible => nomatch impossible
          · rintro ⟨spelled, split, isWord⟩
            rw [(List.nil_eq_append_iff.mp split).1] at isWord
            cases isWord
      | character :: remaining =>
          rw [afterWord]
          constructor
          · intro read
            split at read
            next same =>
              obtain ⟨spelled, rfl, isWord⟩ :=
                (inductionHypothesis remaining).mp read
              exact ⟨character :: spelled, rfl, by
                rw [List.map_cons, same, isWord]⟩
            next => cases read
          · rintro ⟨spelled, split, isWord⟩
            match spelled with
            | [] => cases isWord
            | first :: spelled =>
                rw [List.cons_append] at split
                cases split
                rw [List.map_cons, List.cons.injEq] at isWord
                rw [if_pos isWord.1]
                exact (inductionHypothesis _).mpr ⟨spelled, rfl, isWord.2⟩

/-- A word takes the whole text exactly when the text spells it. -/
theorem afterWord_eq_some_nil_iff
    (word : String)
    (characters : List Char) :
    afterWord word.toList characters = some [] ↔ Spells word characters := by
  rw [afterWord_eq_some_iff, Spells]
  constructor
  · rintro ⟨spelled, rfl, isWord⟩
    rwa [List.append_nil]
  · intro isWord
    exact ⟨characters, (List.append_nil _).symm, isWord⟩

theorem afterNanText_eq_nil_iff
    (characters : List Char) :
    afterNanText characters = [] ↔
      characters = [] ∨ ∃ inner, characters = '(' :: (inner ++ [')']) ∧
        ∀ character ∈ inner,
          (character.isAlphanum || character == '_') = true := by
  constructor
  · intro read
    unfold afterNanText at read
    split at read
    next text =>
      split at read
      next remaining closes =>
        subst read
        refine .inr ⟨text.takeWhile fun character =>
          character.isAlphanum || character == '_', ?_,
          fun character => List.mem_takeWhile_imp⟩
        rw [← closes, List.takeWhile_append_dropWhile]
      next => cases read
    next => exact .inl read
  · rintro (rfl | ⟨inner, rfl, plain⟩)
    · rfl
    · rw [afterNanText]
      have closes : (inner ++ [')']).dropWhile (fun character =>
          character.isAlphanum || character == '_') = [')'] := by
        rw [List.dropWhile_append_of_pos plain]
        decide
      rw [closes]
      rfl

/-! ### Numbers without sign -/

/-- A text that `strtod` reads as a number after the sign. -/
inductive Number (characters : List Char) : Prop
  | decimal {value : ℚ} (isDecimal : Decimal characters value)
  | hexadecimal {value : ℚ} (isHexadecimal : Hexadecimal characters value)
  | infinite (isInfinite : Infinite characters)
  | notANumber (isNotANumber : NotANumber characters)

/-- The number of the format with a sign. -/
def signed (format : FloatFormat) (negative : Bool) (value : ℚ) : FloatValue :=
  format.round (if negative then -value else value)

section Readers

variable (format : FloatFormat) (negative : Bool) (characters : List Char)

/-- The decimal form. -/
def readDecimal : Option (FloatValue × List Char) :=
  (readScaled 10 10 'e' 'E' characters).map fun (value, remaining) =>
    (signed format negative value, remaining)

/-- The hexadecimal form. -/
def readHexadecimal : Option (FloatValue × List Char) :=
  match afterWord ['0', 'x'] characters with
  | none => none
  | some digits =>
      (readScaled 16 2 'p' 'P' digits).map fun (value, remaining) =>
        (signed format negative value, remaining)

/-- The spellings of infinity. -/
def readInfinity : Option (FloatValue × List Char) :=
  ((afterWord "infinity".toList characters).or
    (afterWord "inf".toList characters)).map fun remaining =>
      (.infinity negative, remaining)

/-- The spellings of a value that is not a number. -/
def readNotANumber : Option (FloatValue × List Char) :=
  (afterWord "nan".toList characters).map fun rest => (.nan, afterNanText rest)

theorem readMagnitude_eq :
    readMagnitude format negative characters =
      (readHexadecimal format negative characters).or
        ((readDecimal format negative characters).or
          ((readInfinity negative characters).or
            (readNotANumber characters))) := by
  unfold readMagnitude readHexadecimal readDecimal readScaled
  simp only [Option.map_map]
  rfl

theorem readDecimal_eq_some_nil_iff
    (result : FloatValue) :
    readDecimal format negative characters = some (result, []) ↔
      ∃ value, Decimal characters value ∧
        signed format negative value = result := by
  rw [readDecimal, Option.map_eq_some_iff]
  constructor
  · rintro ⟨⟨value, remaining⟩, read, same⟩
    rw [Prod.mk.injEq] at same
    obtain ⟨isResult, rfl⟩ := same
    exact ⟨value, (decimal_iff _ _).mp read, isResult⟩
  · rintro ⟨value, isDecimal, rfl⟩
    exact ⟨(value, []), (decimal_iff _ _).mpr isDecimal, rfl⟩

theorem exists_readInfinity_iff :
    (∃ result, readInfinity negative characters = some (result, [])) ↔
      Infinite characters := by
  simp only [readInfinity, Infinite, Option.map_eq_some_iff]
  constructor
  · rintro ⟨result, rest, read, same⟩
    rw [Prod.mk.injEq] at same
    obtain ⟨-, rfl⟩ := same
    obtain long | ⟨-, short⟩ := Option.or_eq_some_iff.mp read
    · exact .inr ((afterWord_eq_some_nil_iff _ _).mp long)
    · exact .inl ((afterWord_eq_some_nil_iff _ _).mp short)
  · rintro (short | long)
    · have noLong : afterWord "infinity".toList characters = none := by
        rw [Option.eq_none_iff_forall_ne_some]
        intro rest read
        obtain ⟨spelled, rfl, isWord⟩ := (afterWord_eq_some_iff _ _ _).mp read
        have shortLength := congrArg List.length short
        have longLength := congrArg List.length isWord
        rw [List.length_map, List.length_append] at shortLength
        rw [List.length_map] at longLength
        have three : "inf".toList.length = 3 := rfl
        have eight : "infinity".toList.length = 8 := rfl
        omega
      refine ⟨_, [], ?_, rfl⟩
      rw [noLong, Option.none_or]
      exact (afterWord_eq_some_nil_iff _ _).mpr short
    · refine ⟨_, [], ?_, rfl⟩
      rw [(afterWord_eq_some_nil_iff _ _).mpr long, Option.some_or]

theorem exists_readNotANumber_iff :
    (∃ result, readNotANumber characters = some (result, [])) ↔
      NotANumber characters := by
  simp only [readNotANumber, Option.map_eq_some_iff]
  constructor
  · rintro ⟨result, rest, afterNan, same⟩
    rw [Prod.mk.injEq] at same
    obtain ⟨word, rfl, isWord⟩ := (afterWord_eq_some_iff _ _ _).mp afterNan
    exact ⟨word, rest, rfl, isWord, (afterNanText_eq_nil_iff rest).mp same.2⟩
  · rintro ⟨word, text, rfl, isWord, isText⟩
    refine ⟨.nan, text, (afterWord_eq_some_iff _ _ _).mpr ⟨word, rfl, isWord⟩,
      ?_⟩
    rw [(afterNanText_eq_nil_iff text).mpr isText]

end Readers

/-! ### First characters -/

/-- A character whose small letter is a letter stands behind the digits and the
signs. -/
theorem upperA_le_of_toLower
    {character letter : Char}
    (isLetter : 'a' ≤ letter)
    (lower : character.toLower = letter) :
    'A' ≤ character := by
  unfold Char.toLower at lower
  split at lower
  next isUpper => exact isUpper.1
  next =>
    rw [lower]
    exact le_trans (by decide) isLetter

theorem isDigit_eq_false_of_upperA_le
    {character : Char}
    (large : 'A' ≤ character) :
    isDigit 10 character = false := by
  have notDigit : ¬ ('0' ≤ character ∧ character ≤ '9') := fun digit =>
    absurd (le_trans large digit.2) (by decide)
  rw [isDigit, digitValue, if_neg notDigit]
  rfl

theorem isSpace_eq_false_of_lt
    {character : Char}
    (large : ' ' < character) :
    isSpace character = false := by
  rw [isSpace, Bool.or_eq_false_iff, Bool.and_eq_false_iff]
  refine ⟨beq_false_of_ne (ne_of_gt large), .inr (decide_eq_false fun small => ?_)⟩
  exact absurd (lt_of_lt_of_le large small) (by decide)

theorem toLower_eq_x_iff
    (mark : Char) :
    mark.toLower = 'x' ↔ mark = 'x' ∨ mark = 'X' := by
  constructor
  · intro lower
    unfold Char.toLower at lower
    split at lower
    next =>
      have shifted : mark.val + ('a'.val - 'A'.val) = 'x'.val :=
        congrArg Char.val lower
      exact .inr (Char.ext ((UInt32.add_left_inj _).mp (shifted.trans rfl)))
    next => exact .inl lower
  · rintro (rfl | rfl)
    · decide
    · decide

theorem eq_zero_of_toLower
    {character : Char}
    (lower : character.toLower = '0') :
    character = '0' := by
  unfold Char.toLower at lower
  split at lower
  next isUpper =>
    have shifted : character.val + ('a'.val - 'A'.val) = '0'.val :=
      congrArg Char.val lower
    have small : character.val = 16 :=
      (UInt32.add_left_inj _).mp (shifted.trans rfl)
    rw [small] at isUpper
    exact absurd isUpper.1 (by decide)
  next => exact lower

/-- The first character of a number may follow a sign but is neither blank nor
a sign. -/
def StartsNumber (character : Char) : Prop :=
  isSpace character = false ∧ character ≠ '+' ∧ character ≠ '-'

theorem startsNumber_of_upperA_le
    {character : Char}
    (large : 'A' ≤ character) :
    StartsNumber character := by
  refine ⟨isSpace_eq_false_of_lt (lt_of_lt_of_le (by decide) large), ?_, ?_⟩
  · rintro rfl
    exact absurd large (by decide)
  · rintro rfl
    exact absurd large (by decide)

theorem startsNumber_of_isDigit
    {character : Char}
    (digit : isDigit 10 character = true) :
    StartsNumber character := by
  have between : '0' ≤ character ∧ character ≤ '9' := by
    by_contra outside
    rw [isDigit, digitValue, if_neg outside] at digit
    cases digit
  refine ⟨isSpace_eq_false_of_lt (lt_of_lt_of_le (by decide) between.1), ?_, ?_⟩
  · rintro rfl
    exact absurd between.1 (by decide)
  · rintro rfl
    exact absurd between.1 (by decide)

theorem startsNumber_point : StartsNumber '.' := by
  refine ⟨?_, ?_, ?_⟩
  · decide
  · decide
  · decide

/-- A decimal number starts with a digit or a point. -/
theorem Decimal.exists_head
    {characters : List Char}
    {value : ℚ}
    (isDecimal : Decimal characters value) :
    ∃ character rest, characters = character :: rest ∧
      (isDigit 10 character = true ∨ character = '.') := by
  obtain @⟨digits, scale, _, _, isSignificand, -⟩ := isDecimal
  cases isSignificand with
  | whole isDigits nonempty =>
      match digits with
      | [] => exact absurd rfl nonempty
      | digit :: digits =>
          exact ⟨digit, _, rfl, .inl (isDigits digit List.mem_cons_self)⟩
  | @point whole fraction isWhole isFraction nonempty =>
      match whole with
      | [] => exact ⟨'.', _, rfl, .inr rfl⟩
      | digit :: whole =>
          exact ⟨digit, _, rfl, .inl (isWhole digit List.mem_cons_self)⟩

/-- A text that spells a word starts with a letter for its first letter. -/
theorem Spells.exists_head
    {word : String}
    {characters : List Char}
    (spells : Spells word characters)
    {letter : Char}
    {letters : List Char}
    (isWord : word.toList = letter :: letters) :
    ∃ character rest, characters = character :: rest ∧
      character.toLower = letter := by
  rw [Spells, isWord] at spells
  match characters with
  | [] => cases spells
  | character :: rest =>
      rw [List.map_cons, List.cons.injEq] at spells
      exact ⟨character, rest, rfl, spells.1⟩

theorem Infinite.exists_head
    {characters : List Char}
    (isInfinite : Infinite characters) :
    ∃ character rest, characters = character :: rest ∧
      character.toLower = 'i' :=
  isInfinite.elim (fun short => short.exists_head rfl)
    fun long => long.exists_head rfl

theorem NotANumber.exists_head
    {characters : List Char}
    (isNotANumber : NotANumber characters) :
    ∃ character rest, characters = character :: rest ∧
      character.toLower = 'n' := by
  obtain ⟨word, text, rfl, isWord, -⟩ := isNotANumber
  obtain ⟨character, rest, rfl, isLetter⟩ := isWord.exists_head rfl
  exact ⟨character, rest ++ text, rfl, isLetter⟩

theorem Number.exists_head
    {characters : List Char}
    (isNumber : Number characters) :
    ∃ character rest, characters = character :: rest ∧
      StartsNumber character := by
  cases isNumber with
  | decimal isDecimal =>
      obtain ⟨character, rest, split, digit | rfl⟩ := isDecimal.exists_head
      · exact ⟨character, rest, split, startsNumber_of_isDigit digit⟩
      · exact ⟨'.', rest, split, startsNumber_point⟩
  | hexadecimal isHexadecimal =>
      obtain ⟨mark, body, -, split, -⟩ := isHexadecimal
      exact ⟨'0', mark :: body, split, startsNumber_of_isDigit (by decide)⟩
  | infinite isInfinite =>
      obtain ⟨character, rest, split, lower⟩ := isInfinite.exists_head
      exact ⟨character, rest, split,
        startsNumber_of_upperA_le (upperA_le_of_toLower (by decide) lower)⟩
  | notANumber isNotANumber =>
      obtain ⟨character, rest, split, lower⟩ := isNotANumber.exists_head
      exact ⟨character, rest, split,
        startsNumber_of_upperA_le (upperA_le_of_toLower (by decide) lower)⟩

theorem Decimal.value_unique
    {characters : List Char}
    {value other : ℚ}
    (isDecimal : Decimal characters value)
    (isOther : Decimal characters other) :
    value = other := by
  rw [← decimal_iff] at isDecimal isOther
  rw [isDecimal, Option.some_inj, Prod.mk.injEq] at isOther
  exact isOther.1

theorem Decimal.not_upperA_le
    {character : Char}
    {rest : List Char}
    {value : ℚ}
    (isDecimal : Decimal (character :: rest) value) :
    ¬ 'A' ≤ character := by
  intro large
  obtain ⟨first, others, same, digit | rfl⟩ := isDecimal.exists_head
  · cases same
    rw [isDigit_eq_false_of_upperA_le large] at digit
    cases digit
  · cases same
    exact absurd large (by decide)

/-! ### The longest form -/

section Longest

variable (format : FloatFormat) (negative : Bool)

theorem afterWord_eq_none
    {letter character : Char}
    (other : character.toLower ≠ letter)
    (word rest : List Char) :
    afterWord (letter :: word) (character :: rest) = none := by
  rw [afterWord, if_neg other]

theorem readInfinity_eq_none
    {character : Char}
    (other : character.toLower ≠ 'i')
    (rest : List Char) :
    readInfinity negative (character :: rest) = none := by
  have long : "infinity".toList = 'i' :: "nfinity".toList := rfl
  have short : "inf".toList = 'i' :: "nf".toList := rfl
  rw [readInfinity, long, short, afterWord_eq_none other,
    afterWord_eq_none other]
  rfl

theorem readHexadecimal_eq_none
    {character : Char}
    (notZero : character.toLower ≠ '0')
    (rest : List Char) :
    readHexadecimal format negative (character :: rest) = none := by
  rw [readHexadecimal, afterWord_eq_none notZero]

theorem readDecimal_eq_none
    {character : Char}
    (large : 'A' ≤ character)
    (rest : List Char) :
    readDecimal format negative (character :: rest) = none := by
  have noDigits : readDigits 10 (character :: rest) =
      ([], character :: rest) := by
    rw [readDigits_eq, List.takeWhile_cons_of_neg, List.dropWhile_cons_of_neg]
    · rfl
    · simp [isDigit_eq_false_of_upperA_le large]
    · simp [isDigit_eq_false_of_upperA_le large]
  rw [readDecimal, readScaled, readSignificand, noDigits]
  dsimp only
  split
  next same =>
    cases same
    exact absurd large (by decide)
  next => rfl

theorem exists_of_afterWord_zero_x
    {characters digits : List Char}
    (read : afterWord ['0', 'x'] characters = some digits) :
    ∃ mark, (mark = 'x' ∨ mark = 'X') ∧ characters = '0' :: mark :: digits := by
  obtain ⟨spelled, rfl, isPrefix⟩ := (afterWord_eq_some_iff _ _ _).mp read
  have twoLong : spelled.length = 2 := by
    rw [← List.length_map Char.toLower, isPrefix]
    rfl
  obtain ⟨zero, mark, rfl⟩ := List.length_eq_two.mp twoLong
  simp only [List.map_cons, List.map_nil, List.cons.injEq, and_true] at isPrefix
  rw [eq_zero_of_toLower isPrefix.1]
  exact ⟨mark, (toLower_eq_x_iff mark).mp isPrefix.2, rfl⟩

/-- Of a text that starts like a hexadecimal number the decimal form takes only
the zero. -/
theorem readScaled_zero_x
    {mark : Char}
    (isMark : mark = 'x' ∨ mark = 'X')
    (digits : List Char) :
    readScaled 10 10 'e' 'E' ('0' :: mark :: digits) =
      some (0, mark :: digits) := by
  obtain rfl | rfl := isMark
  · simp [readScaled, readSignificand, readDigits, digitValue, readExponent,
      ofDigits]
  · simp [readScaled, readSignificand, readDigits, digitValue, readExponent,
      ofDigits]

/-- A decimal number does not start like a hexadecimal one. -/
theorem Decimal.readHexadecimal_eq_none
    {characters : List Char}
    {value : ℚ}
    (isDecimal : Decimal characters value) :
    readHexadecimal format negative characters = none := by
  rw [readHexadecimal]
  split
  next => rfl
  next digits afterPrefix =>
    obtain ⟨mark, isMark, rfl⟩ := exists_of_afterWord_zero_x afterPrefix
    rw [← decimal_iff, readScaled_zero_x isMark] at isDecimal
    cases isDecimal

theorem readHexadecimal_eq_some_nil_iff
    (characters : List Char)
    (result : FloatValue) :
    readHexadecimal format negative characters = some (result, []) ↔
      ∃ value, Hexadecimal characters value ∧
        signed format negative value = result := by
  constructor
  · intro read
    rw [readHexadecimal] at read
    split at read
    next => cases read
    next digits afterPrefix =>
      obtain ⟨⟨value, remaining⟩, readDigits, same⟩ :=
        Option.map_eq_some_iff.mp read
      rw [Prod.mk.injEq] at same
      obtain ⟨isResult, rfl⟩ := same
      obtain ⟨mark, isMark, split⟩ := exists_of_afterWord_zero_x afterPrefix
      exact ⟨value, ⟨mark, digits, isMark, split,
        (hexadecimalDigits_iff _ _).mp readDigits⟩, isResult⟩
  · rintro ⟨value, ⟨mark, body, isMark, rfl, isScaled⟩, rfl⟩
    have afterPrefix : afterWord ['0', 'x'] ('0' :: mark :: body) =
        some body := by
      rw [afterWord_eq_some_iff]
      refine ⟨['0', mark], rfl, ?_⟩
      rw [List.map_cons, List.map_singleton, (toLower_eq_x_iff mark).mpr isMark]
      rfl
    rw [readHexadecimal, afterPrefix]
    dsimp only
    rw [(hexadecimalDigits_iff _ _).mpr isScaled]
    rfl

/-- A text is read as a whole after the sign exactly when it is a number. -/
theorem exists_readMagnitude_iff
    (characters : List Char) :
    (∃ result, readMagnitude format negative characters = some (result, [])) ↔
      Number characters := by
  rw [readMagnitude_eq]
  constructor
  · rintro ⟨result, read⟩
    simp only [Option.or_eq_some_iff] at read
    obtain read | ⟨-, read | ⟨-, read | ⟨-, read⟩⟩⟩ := read
    · obtain ⟨value, isHexadecimal, -⟩ :=
        (readHexadecimal_eq_some_nil_iff _ _ _ _).mp read
      exact .hexadecimal isHexadecimal
    · obtain ⟨value, isDecimal, -⟩ :=
        (readDecimal_eq_some_nil_iff _ _ _ _).mp read
      exact .decimal isDecimal
    · exact .infinite ((exists_readInfinity_iff _ _).mp ⟨result, read⟩)
    · exact .notANumber ((exists_readNotANumber_iff _).mp ⟨result, read⟩)
  · intro isNumber
    cases isNumber with
    | @decimal value isDecimal =>
        refine ⟨signed format negative value, ?_⟩
        rw [isDecimal.readHexadecimal_eq_none, Option.none_or,
          (readDecimal_eq_some_nil_iff _ _ _ _).mpr ⟨_, isDecimal, rfl⟩,
          Option.some_or]
    | @hexadecimal value isHexadecimal =>
        refine ⟨signed format negative value, ?_⟩
        rw [(readHexadecimal_eq_some_nil_iff _ _ _ _).mpr
          ⟨_, isHexadecimal, rfl⟩, Option.some_or]
    | infinite isInfinite =>
        obtain ⟨character, rest, rfl, lower⟩ := isInfinite.exists_head
        have large := upperA_le_of_toLower (by decide) lower
        obtain ⟨result, read⟩ :=
          (exists_readInfinity_iff negative _).mpr isInfinite
        refine ⟨result, ?_⟩
        rw [readHexadecimal_eq_none _ _ (by rw [lower]; decide),
          readDecimal_eq_none _ _ large, read]
        rfl
    | notANumber isNotANumber =>
        obtain ⟨character, rest, rfl, lower⟩ := isNotANumber.exists_head
        have large := upperA_le_of_toLower (by decide) lower
        obtain ⟨result, read⟩ :=
          (exists_readNotANumber_iff _).mpr isNotANumber
        refine ⟨result, ?_⟩
        rw [readHexadecimal_eq_none _ _ (by rw [lower]; decide),
          readDecimal_eq_none _ _ large,
          readInfinity_eq_none _ (by rw [lower]; decide), read]
        rfl

end Longest

end Strtod
end Foundation
