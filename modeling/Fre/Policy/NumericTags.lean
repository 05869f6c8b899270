import Fre.Foundation.FromChars
import Fre.Policy.RuleEngine

/-!
# The numbers of the numeric tag leaves

The leaves about the number in a tag are documented to read it as
`std::from_chars` does.  `parse_double` copies the text into a buffer of 64 bytes
and calls `strtod`, which accepts more forms and, through the buffer, fewer
lengths.
-/

namespace Fre
namespace Policy

open Foundation

/-- `parse_double` accepts the text exactly if `from_chars` reads the whole of
it as a finite number. -/
def AcceptsAsDocumented (text : String) : Prop :=
  (parseDouble text).isSome = true ↔
    ∃ value, fromChars .binary64 text.toList = (.ok (.finite value), [])

/-- `parse_double` accepts a text that fits into the buffer and that `strtod`
reads as a whole. -/
theorem parseDouble_isSome_iff
    (text : String) :
    (parseDouble text).isSome = true ↔
      text.utf8ByteSize < 64 ∧
        ∃ blanks sign body, Parts text.toList blanks sign body := by
  by_cases empty : text.isEmpty = true
  · rw [parseDouble, if_pos empty]
    refine ⟨(nomatch ·), ?_⟩
    rintro ⟨-, blanks, sign, body, parts⟩
    obtain ⟨character, rest, rfl, -⟩ := parts.isNumber.exists_head
    have noCharacter := parts.split
    rw [String.isEmpty_iff.mp empty] at noCharacter
    simp at noCharacter
  have nonempty : text.toList ≠ [] := by
    simpa using empty
  rw [parseDouble, if_neg empty, ← strtod_snd_eq_nil_iff .binary64 nonempty]
  by_cases large : 64 ≤ text.utf8ByteSize
  · rw [if_pos large]
    refine ⟨(nomatch ·), ?_⟩
    rintro ⟨small, -⟩
    omega
  rw [if_neg large]
  match read : strtod .binary64 text.toList with
  | (value, []) => exact ⟨fun _ => ⟨by omega, rfl⟩, fun _ => rfl⟩
  | (value, character :: rest) =>
      refine ⟨(nomatch ·), ?_⟩
      rintro ⟨-, nothingLeft⟩
      cases nothingLeft

/-- `parse_double` accepts what is documented exactly at the texts of less than
64 bytes that do not have one of the forms only `strtod` reads, and at the texts
of 64 bytes or more that are not plain numbers. -/
theorem acceptsAsDocumented_iff
    (text : String) :
    AcceptsAsDocumented text ↔
      (text.utf8ByteSize < 64 ∧ ¬ Lenient .binary64 text.toList) ∨
        (64 ≤ text.utf8ByteSize ∧ ¬ Plain .binary64 text.toList) := by
  rw [AcceptsAsDocumented, parseDouble_isSome_iff, exists_fromChars_finite_iff]
  obtain small | large := Nat.lt_or_ge text.utf8ByteSize 64
  · constructor
    · intro same
      refine .inl ⟨small, fun lenient => ?_⟩
      exact (same.mp ⟨small, lenient.exists_parts⟩).not_lenient lenient
    · rintro (⟨-, notLenient⟩ | ⟨large, -⟩)
      · constructor
        · rintro ⟨-, blanks, sign, body, parts⟩
          exact (parts.plain_or_lenient .binary64).resolve_right notLenient
        · intro plain
          obtain ⟨sign, body, _, parts, -⟩ := plain.exists_parts
          exact ⟨small, [], sign, body, parts⟩
      · omega
  · constructor
    · intro same
      refine .inr ⟨large, fun plain => ?_⟩
      have accepted := (same.mpr plain).1
      omega
    · rintro (⟨small, -⟩ | ⟨-, notPlain⟩)
      · omega
      · constructor
        · rintro ⟨small, -⟩
          omega
        · intro plain
          exact absurd plain notPlain

/-- A text that `from_chars` does not read to its end must be refused. -/
theorem not_acceptsAsDocumented
    {text : String}
    (accepted : (parseDouble text).isSome = true)
    (left : (fromChars .binary64 text.toList).2 ≠ []) :
    ¬ AcceptsAsDocumented text := by
  intro same
  obtain ⟨value, read⟩ := same.mp accepted
  exact left (congrArg Prod.snd read)

/-- Blanks, plus signs, hexadecimal digits, infinities and a number too close to
zero are accepted, and a number of 64 digits is not. -/
theorem undocumented_numbers :
    ¬ AcceptsAsDocumented " 1" ∧ ¬ AcceptsAsDocumented "+1" ∧
      ¬ AcceptsAsDocumented "0x10" ∧ ¬ AcceptsAsDocumented "inf" ∧
      ¬ AcceptsAsDocumented "1e-999" ∧
      ¬ AcceptsAsDocumented (String.ofList (List.replicate 64 '0')) := by
  refine ⟨?_, ?_, ?_, ?_, ?_, ?_⟩
  · exact not_acceptsAsDocumented (by decide +kernel) (by decide +kernel)
  · exact not_acceptsAsDocumented (by decide +kernel) (by decide +kernel)
  · exact not_acceptsAsDocumented (by decide +kernel) (by decide +kernel)
  · intro same
    obtain ⟨value, read⟩ := same.mp (by decide +kernel)
    have infinite : fromChars .binary64 "inf".toList =
        (.ok (.infinity false), []) := by
      decide +kernel
    rw [infinite] at read
    cases read
  · intro same
    obtain ⟨value, read⟩ := same.mp (by decide +kernel)
    have tooSmall : fromChars .binary64 "1e-999".toList =
        (.error .resultOutOfRange, []) := by
      decide +kernel
    rw [tooSmall] at read
    cases read
  · intro same
    have accepted := same.mpr ⟨0, by decide +kernel⟩
    exact absurd accepted (by decide +kernel)

end Policy
end Fre
