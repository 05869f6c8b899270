import Fre.Foundation.NumberSyntax

/-!
# `from_chars` and `strtod`

`std::from_chars` in the general format reads no blanks, no plus sign and no
hexadecimal numbers, and reports a number beyond the range of the format, or too
close to zero for it.  The texts that one of the two functions reads as a whole
and the other does not are listed by their form.
-/

namespace Foundation

open Strtod

/-- The errors of `from_chars`. -/
inductive Errc
  | invalidArgument
  | resultOutOfRange
  deriving DecidableEq, Repr

/-- An optional minus sign. -/
def readMinus : List Char → Bool × List Char
  | '-' :: rest => (true, rest)
  | characters => (false, characters)

/-- The number of the format for a decimal number: out of range are those that
round to infinity, and those that round to zero without being zero. -/
def inFormat (format : FloatFormat) (negative : Bool) (value : ℚ) :
    Except Errc FloatValue :=
  match signed format negative value with
  | .finite result =>
      if result = 0 ∧ value ≠ 0 then .error .resultOutOfRange
      else .ok (.finite result)
  | _ => .error .resultOutOfRange

/-- `std::from_chars` with `chars_format::general`: the value or the error, and
the characters after the ones that were matched. -/
def fromChars (format : FloatFormat) (characters : List Char) :
    Except Errc FloatValue × List Char :=
  let (negative, afterSign) := readMinus characters
  match readScaled 10 10 'e' 'E' afterSign with
  | some (value, remaining) => (inFormat format negative value, remaining)
  | none =>
      match (readInfinity negative afterSign).or (readNotANumber afterSign) with
      | some (value, remaining) => (.ok value, remaining)
      | none => (.error .invalidArgument, characters)

/-! ### Blanks and signs -/

/-- The sign is a minus. -/
def isMinus (sign : List Char) : Bool := sign == ['-']

/-- Blanks are skipped up to a sign or a number. -/
theorem dropWhile_isSpace_append
    {blanks sign rest : List Char}
    {character : Char}
    (areBlanks : ∀ blank ∈ blanks, isSpace blank = true)
    (isSign : sign = [] ∨ sign = ['+'] ∨ sign = ['-'])
    (starts : StartsNumber character) :
    (blanks ++ (sign ++ character :: rest)).dropWhile isSpace =
      sign ++ character :: rest := by
  rw [List.dropWhile_append_of_pos areBlanks]
  obtain rfl | rfl | rfl := isSign
  · exact List.dropWhile_cons_of_neg (by simp [starts.1])
  · rfl
  · rfl

/-- A sign is read in front of a number, and nothing where there is none. -/
theorem readSign_append
    {sign rest : List Char}
    {character : Char}
    (isSign : sign = [] ∨ sign = ['+'] ∨ sign = ['-'])
    (starts : StartsNumber character) :
    readSign (sign ++ character :: rest) = (isMinus sign, character :: rest) := by
  obtain ⟨-, notPlus, notMinus⟩ := starts
  obtain rfl | rfl | rfl := isSign
  · rw [List.nil_append]
    unfold readSign
    split
    next same =>
      cases same
      exact absurd rfl notMinus
    next same =>
      cases same
      exact absurd rfl notPlus
    next => rfl
  · rfl
  · rfl

/-- What is read as a sign is one. -/
theorem exists_sign (characters : List Char) :
    ∃ sign, (sign = [] ∨ sign = ['+'] ∨ sign = ['-']) ∧
      isMinus sign = (readSign characters).1 ∧
      characters = sign ++ (readSign characters).2 := by
  obtain ⟨rest, rfl, -⟩ | ⟨rest, rfl, -⟩ | read := readSign_cases characters
  · exact ⟨['-'], .inr (.inr rfl), rfl, rfl⟩
  · exact ⟨['+'], .inr (.inl rfl), rfl, rfl⟩
  · rw [read]
    exact ⟨[], .inl rfl, rfl, rfl⟩

/-! ### Texts read as a whole -/

/-- The text is blanks, an optional sign and a number. -/
structure Parts (characters blanks sign body : List Char) : Prop where
  split : characters = blanks ++ (sign ++ body)
  areBlanks : ∀ character ∈ blanks, isSpace character = true
  isSign : sign = [] ∨ sign = ['+'] ∨ sign = ['-']
  isNumber : Number body

theorem Parts.dropWhile_isSpace
    {characters blanks sign body : List Char}
    (parts : Parts characters blanks sign body) :
    characters.dropWhile isSpace = sign ++ body := by
  obtain ⟨character, rest, rfl, starts⟩ := parts.isNumber.exists_head
  rw [parts.split]
  exact dropWhile_isSpace_append parts.areBlanks parts.isSign starts

theorem Parts.readSign_eq
    {characters blanks sign body : List Char}
    (parts : Parts characters blanks sign body) :
    readSign (sign ++ body) = (isMinus sign, body) := by
  obtain ⟨character, rest, rfl, starts⟩ := parts.isNumber.exists_head
  exact readSign_append parts.isSign starts

/-- `strtod` reads a text as a whole exactly when it is blanks, an optional sign
and a number. -/
theorem strtod_snd_eq_nil_iff
    (format : FloatFormat)
    {characters : List Char}
    (nonempty : characters ≠ []) :
    (strtod format characters).2 = [] ↔
      ∃ blanks sign body, Parts characters blanks sign body := by
  constructor
  · intro read
    rw [strtod] at read
    dsimp only at read
    match magnitude : readMagnitude format
        (readSign (characters.dropWhile isSpace)).1
        (readSign (characters.dropWhile isSpace)).2 with
    | none =>
        rw [magnitude] at read
        exact absurd read nonempty
    | some (result, remaining) =>
        rw [magnitude] at read
        change remaining = [] at read
        subst read
        have isNumber := (exists_readMagnitude_iff format _ _).mp
          ⟨result, magnitude⟩
        have areBlanks : ∀ character ∈ characters.takeWhile isSpace,
            isSpace character = true :=
          fun _ member => List.mem_takeWhile_imp member
        have split : characters = characters.takeWhile isSpace ++
            characters.dropWhile isSpace :=
          (List.takeWhile_append_dropWhile).symm
        obtain ⟨sign, isSign, -, signed⟩ :=
          exists_sign (characters.dropWhile isSpace)
        rw [signed] at split
        exact ⟨_, sign, _, split, areBlanks, isSign, isNumber⟩
  · rintro ⟨blanks, sign, body, parts⟩
    obtain ⟨result, read⟩ :=
      (exists_readMagnitude_iff format (isMinus sign) body).mpr parts.isNumber
    rw [strtod, parts.dropWhile_isSpace, parts.readSign_eq]
    dsimp only
    rw [read]
    rfl

theorem Parts.unique
    {characters blanks sign body otherBlanks otherSign otherBody : List Char}
    (parts : Parts characters blanks sign body)
    (others : Parts characters otherBlanks otherSign otherBody) :
    blanks = otherBlanks ∧ sign = otherSign ∧ body = otherBody := by
  have sameRest : sign ++ body = otherSign ++ otherBody :=
    parts.dropWhile_isSpace.symm.trans others.dropWhile_isSpace
  have sameBlanks : blanks = otherBlanks := by
    have sameText := parts.split.symm.trans others.split
    rw [sameRest] at sameText
    exact List.append_cancel_right sameText
  have sameSigns := parts.readSign_eq
  rw [sameRest, others.readSign_eq, Prod.mk.injEq] at sameSigns
  obtain ⟨-, rfl⟩ := sameSigns
  exact ⟨sameBlanks, List.append_cancel_right sameRest, rfl⟩

/-- The decimal number is within the range of the format: it rounds to a finite
number, and to zero only if it is zero. -/
def InRange (format : FloatFormat) (negative : Bool) (value : ℚ) : Prop :=
  ∃ result, signed format negative value = .finite result ∧
    (result = 0 → value = 0)

theorem inFormat_eq_ok_iff
    (format : FloatFormat)
    (negative : Bool)
    (value result : ℚ) :
    inFormat format negative value = .ok (.finite result) ↔
      signed format negative value = .finite result ∧
        (result = 0 → value = 0) := by
  unfold inFormat
  cases signed format negative value with
  | finite rounded =>
      dsimp only
      rw [FloatValue.finite.injEq]
      split
      next tiny =>
        constructor
        · intro impossible
          cases impossible
        · rintro ⟨rfl, zero⟩
          exact absurd (zero tiny.1) tiny.2
      next notTiny =>
        rw [Except.ok.injEq, FloatValue.finite.injEq]
        refine (and_iff_left_of_imp ?_).symm
        rintro rfl zero
        by_contra nonzero
        exact notTiny ⟨zero, nonzero⟩
  | infinity negative => simp
  | nan => simp

/-- An optional minus sign and a decimal number within the range of the
format. -/
def Plain (format : FloatFormat) (characters : List Char) : Prop :=
  ∃ sign body value, (sign = [] ∨ sign = ['-']) ∧
    characters = sign ++ body ∧ Decimal body value ∧
    InRange format (isMinus sign) value

/-- The forms of a text that `strtod` reads as a whole although it is not
plain. -/
inductive Lenient (format : FloatFormat) (characters : List Char) : Prop
  | blank {blanks sign body : List Char}
      (parts : Parts characters blanks sign body) (nonempty : blanks ≠ [])
  | plus {blanks body : List Char} (parts : Parts characters blanks ['+'] body)
  | hexadecimal {blanks sign body : List Char} {value : ℚ}
      (parts : Parts characters blanks sign body)
      (isHexadecimal : Hexadecimal body value)
  | infinite {blanks sign body : List Char}
      (parts : Parts characters blanks sign body) (isInfinite : Infinite body)
  | notANumber {blanks sign body : List Char}
      (parts : Parts characters blanks sign body)
      (isNotANumber : NotANumber body)
  | tooLarge {blanks sign body : List Char} {value : ℚ}
      (parts : Parts characters blanks sign body)
      (isDecimal : Decimal body value)
      (notFinite : ∀ result,
        signed format (isMinus sign) value ≠ .finite result)
  | tooSmall {blanks sign body : List Char} {value : ℚ}
      (parts : Parts characters blanks sign body)
      (isDecimal : Decimal body value)
      (nonzero : value ≠ 0)
      (isZero : signed format (isMinus sign) value = .finite 0)

theorem Plain.exists_parts
    {format : FloatFormat}
    {characters : List Char}
    (plain : Plain format characters) :
    ∃ sign body value, Parts characters [] sign body ∧
      (sign = [] ∨ sign = ['-']) ∧ Decimal body value ∧
      InRange format (isMinus sign) value := by
  obtain ⟨sign, body, value, isSign, rfl, isDecimal, inRange⟩ := plain
  refine ⟨sign, body, value, ⟨rfl, ?_, ?_, .decimal isDecimal⟩, isSign,
    isDecimal, inRange⟩
  · intro character member
    cases member
  · exact isSign.elim .inl fun minus => .inr (.inr minus)

/-- A plain text has none of the other forms. -/
theorem Plain.not_lenient
    {format : FloatFormat}
    {characters : List Char}
    (plain : Plain format characters) :
    ¬ Lenient format characters := by
  obtain ⟨sign, body, value, plainParts, isSign, isDecimal, result, rounded,
    zero⟩ := plain.exists_parts
  intro lenient
  cases lenient with
  | blank parts nonempty => exact nonempty (parts.unique plainParts).1
  | plus parts =>
      obtain ⟨-, rfl, -⟩ := parts.unique plainParts
      exact isSign.elim (by decide) (by decide)
  | hexadecimal parts isHexadecimal =>
      obtain ⟨-, -, rfl⟩ := parts.unique plainParts
      have read := (readHexadecimal_eq_some_nil_iff format false _ _).mpr
        ⟨_, isHexadecimal, rfl⟩
      rw [isDecimal.readHexadecimal_eq_none] at read
      cases read
  | infinite parts isInfinite =>
      obtain ⟨-, -, rfl⟩ := parts.unique plainParts
      obtain ⟨character, rest, rfl, lower⟩ := isInfinite.exists_head
      exact isDecimal.not_upperA_le (upperA_le_of_toLower (by decide) lower)
  | notANumber parts isNotANumber =>
      obtain ⟨-, -, rfl⟩ := parts.unique plainParts
      obtain ⟨character, rest, rfl, lower⟩ := isNotANumber.exists_head
      exact isDecimal.not_upperA_le (upperA_le_of_toLower (by decide) lower)
  | tooLarge parts isOther notFinite =>
      obtain ⟨-, rfl, rfl⟩ := parts.unique plainParts
      obtain rfl := isDecimal.value_unique isOther
      exact notFinite result rounded
  | tooSmall parts isOther nonzero isZero =>
      obtain ⟨-, rfl, rfl⟩ := parts.unique plainParts
      obtain rfl := isDecimal.value_unique isOther
      rw [isZero, FloatValue.finite.injEq] at rounded
      exact nonzero (zero rounded.symm)

/-- A text that `strtod` reads as a whole is plain or has one of the other
forms. -/
theorem Parts.plain_or_lenient
    {characters blanks sign body : List Char}
    (parts : Parts characters blanks sign body)
    (format : FloatFormat) :
    Plain format characters ∨ Lenient format characters := by
  by_cases blank : blanks = []
  case neg => exact .inr (.blank parts blank)
  by_cases isPlus : sign = ['+']
  case pos =>
    subst isPlus
    exact .inr (.plus parts)
  cases parts.isNumber with
  | hexadecimal isHexadecimal => exact .inr (.hexadecimal parts isHexadecimal)
  | infinite isInfinite => exact .inr (.infinite parts isInfinite)
  | notANumber isNotANumber => exact .inr (.notANumber parts isNotANumber)
  | @decimal value isDecimal =>
      by_cases inRange : InRange format (isMinus sign) value
      · have split := parts.split
        rw [blank, List.nil_append] at split
        have isSign : sign = [] ∨ sign = ['-'] := by
          obtain none | plus | minus := parts.isSign
          · exact .inl none
          · exact absurd plus isPlus
          · exact .inr minus
        exact .inl ⟨sign, body, value, isSign, split, isDecimal, inRange⟩
      · by_cases small : value ≠ 0 ∧
          signed format (isMinus sign) value = .finite 0
        · exact .inr (.tooSmall parts isDecimal small.1 small.2)
        · refine .inr (.tooLarge parts isDecimal fun result rounded => ?_)
          refine inRange ⟨result, rounded, ?_⟩
          rintro rfl
          by_contra nonzero
          exact small ⟨nonzero, rounded⟩

theorem Lenient.exists_parts
    {format : FloatFormat}
    {characters : List Char}
    (lenient : Lenient format characters) :
    ∃ blanks sign body, Parts characters blanks sign body := by
  cases lenient with
  | blank parts => exact ⟨_, _, _, parts⟩
  | plus parts => exact ⟨_, _, _, parts⟩
  | hexadecimal parts => exact ⟨_, _, _, parts⟩
  | infinite parts => exact ⟨_, _, _, parts⟩
  | notANumber parts => exact ⟨_, _, _, parts⟩
  | tooLarge parts => exact ⟨_, _, _, parts⟩
  | tooSmall parts => exact ⟨_, _, _, parts⟩

/-! ### What `from_chars` accepts -/

theorem readMinus_cases
    (characters : List Char) :
    (∃ rest, characters = '-' :: rest ∧ readMinus characters = (true, rest)) ∨
      readMinus characters = (false, characters) := by
  unfold readMinus
  split
  next rest => exact .inl ⟨rest, rfl, rfl⟩
  next => exact .inr rfl

theorem readMinus_of_decimal
    {body : List Char}
    {value : ℚ}
    (isDecimal : Decimal body value) :
    readMinus body = (false, body) := by
  obtain ⟨character, rest, rfl, -, -, notMinus⟩ :=
    (Number.decimal isDecimal).exists_head
  unfold readMinus
  split
  next same =>
    cases same
    exact absurd rfl notMinus
  next => rfl

theorem fromChars_eq_of_decimal
    {format : FloatFormat}
    {characters : List Char}
    {value result : ℚ}
    (isDecimal : Decimal (readMinus characters).2 value)
    (rounded : signed format (readMinus characters).1 value = .finite result)
    (zero : result = 0 → value = 0) :
    fromChars format characters = (.ok (.finite result), []) := by
  rw [fromChars]
  dsimp only
  rw [(decimal_iff _ _).mpr isDecimal]
  dsimp only
  rw [(inFormat_eq_ok_iff format _ value result).mpr ⟨rounded, zero⟩]

/-- `from_chars` reads a text as a whole and gives a finite number exactly when
the text is plain. -/
theorem exists_fromChars_finite_iff
    (format : FloatFormat)
    (characters : List Char) :
    (∃ result, fromChars format characters = (.ok (.finite result), [])) ↔
      Plain format characters := by
  constructor
  · rintro ⟨result, read⟩
    rw [fromChars] at read
    dsimp only at read
    split at read
    next value remaining decimal =>
      rw [Prod.mk.injEq, inFormat_eq_ok_iff] at read
      obtain ⟨inRange, rfl⟩ := read
      have isDecimal := (decimal_iff _ _).mp decimal
      obtain ⟨rest, rfl, sign⟩ | sign := readMinus_cases characters
      · rw [sign] at isDecimal inRange
        exact ⟨['-'], rest, value, .inr rfl, rfl, isDecimal, result, inRange⟩
      · rw [sign] at isDecimal inRange
        exact ⟨[], characters, value, .inl rfl, rfl, isDecimal, result, inRange⟩
    next =>
      split at read
      next value remaining word =>
        cases read
        obtain infinity | ⟨-, notANumber⟩ := Option.or_eq_some_iff.mp word
        · obtain ⟨_, -, same⟩ := Option.map_eq_some_iff.mp infinity
          cases same
        · obtain ⟨_, -, same⟩ := Option.map_eq_some_iff.mp notANumber
          cases same
      next => cases read
  · rintro ⟨sign, body, value, isSign, rfl, isDecimal, result, rounded, zero⟩
    refine ⟨result, fromChars_eq_of_decimal ?_ ?_ zero⟩
    · obtain rfl | rfl := isSign
      · rw [List.nil_append, readMinus_of_decimal isDecimal]
        exact isDecimal
      · exact isDecimal
    · obtain rfl | rfl := isSign
      · rw [List.nil_append, readMinus_of_decimal isDecimal]
        exact rounded
      · exact rounded

end Foundation
