import Mathlib.Data.List.Basic

/-!
# Texts as bytes

The UTF-8 encoding of a text.  A byte below 128 is a whole character and never
part of a longer one, so bytes that are cut at such a byte are cut between two
characters.
-/

namespace Foundation
namespace Utf8

/-- The bytes of a text. -/
def encode (text : List Char) : List UInt8 :=
  text.flatMap String.utf8EncodeChar

/-- The bytes are those of a text. -/
def IsText (bytes : List UInt8) : Prop :=
  ∃ text, encode text = bytes

@[simp]
theorem encode_nil : encode [] = [] := rfl

@[simp]
theorem encode_cons
    (character : Char)
    (text : List Char) :
    encode (character :: text) =
      String.utf8EncodeChar character ++ encode text :=
  List.flatMap_cons

@[simp]
theorem encode_append
    (first second : List Char) :
    encode (first ++ second) = encode first ++ encode second :=
  List.flatMap_append

theorem encode_injective : Function.Injective encode := by
  intro first second same
  have sameBytes : (String.ofList first).toByteArray =
      (String.ofList second).toByteArray := by
    rw [String.toByteArray_ofList, String.toByteArray_ofList]
    exact congrArg List.toByteArray same
  exact String.ofList_injective (String.toByteArray_inj.mp sameBytes)

/-! ### Bytes below 128 -/

theorem ne_ofNat_of_ascii
    {byte : UInt8}
    (ascii : byte.toNat < 128)
    {number mark : Nat}
    (high : 128 ≤ mark)
    (fits : number + mark < 256) :
    byte ≠ UInt8.ofNat (number + mark) := by
  rintro rfl
  rw [UInt8.toNat_ofNat_of_lt' fits] at ascii
  omega

/-- A character with a byte below 128 has this byte only. -/
theorem utf8EncodeChar_eq_of_mem
    {byte : UInt8}
    {character : Char}
    (ascii : byte.toNat < 128)
    (member : byte ∈ String.utf8EncodeChar character) :
    String.utf8EncodeChar character = [byte] := by
  have notHigh := @ne_ofNat_of_ascii byte ascii
  -- all bytes of a longer character are marked with the highest bit
  unfold String.utf8EncodeChar at member
  simp only at member
  split at member
  next small =>
    rw [List.mem_singleton.mp member]
    exact if_pos small
  next =>
    split at member
    next =>
      simp only [List.mem_cons, List.not_mem_nil, or_false] at member
      obtain same | same := member
      all_goals exact absurd same (notHigh (by decide) (by omega))
    next =>
      split at member
      all_goals simp only [List.mem_cons, List.not_mem_nil, or_false] at member
      next =>
        obtain same | same | same := member
        all_goals exact absurd same (notHigh (by decide) (by omega))
      next =>
        obtain same | same | same | same := member
        all_goals exact absurd same (notHigh (by decide) (by omega))

/-- Bytes that are cut at a byte below 128 are cut around a character. -/
theorem exists_of_encode_eq_append_cons
    {text : List Char}
    {before after : List UInt8}
    {byte : UInt8}
    (ascii : byte.toNat < 128)
    (same : encode text = before ++ byte :: after) :
    ∃ first character rest, text = first ++ character :: rest ∧
      encode first = before ∧ String.utf8EncodeChar character = [byte] ∧
      encode rest = after := by
  induction text generalizing before with
  | nil => simp at same
  | cons character text inductionHypothesis =>
      rw [encode_cons] at same
      obtain ⟨between, rfl, tail⟩ | ⟨between, here, tail⟩ :=
        List.append_eq_append_iff.mp same
      · obtain ⟨first, cut, rest, rfl, rfl, single, rfl⟩ :=
          inductionHypothesis tail
        exact ⟨character :: first, cut, rest, rfl, encode_cons _ _, single, rfl⟩
      · match between with
        | [] =>
            obtain ⟨first, cut, rest, rfl, noBytes, single, rfl⟩ :=
              @inductionHypothesis [] tail.symm
            refine ⟨character :: first, cut, rest, rfl, ?_, single, rfl⟩
            rw [encode_cons, noBytes, here, List.append_nil, List.append_nil]
        | other :: between =>
            obtain ⟨rfl, rest⟩ := List.cons.inj tail
            have single := utf8EncodeChar_eq_of_mem ascii (by
              rw [here]
              exact List.mem_append_right _ List.mem_cons_self)
            rw [single] at here
            obtain ⟨rfl, alone⟩ := List.append_eq_singleton_iff.mp here.symm
              |>.resolve_right (by simp)
            obtain rfl := (List.cons.inj alone).2
            exact ⟨[], character, text, rfl, rfl, single, rest.symm⟩

/-- A character that is one byte below 128 is in the text when the byte is. -/
theorem mem_of_mem_encode
    {text : List Char}
    {character : Char}
    {byte : UInt8}
    (ascii : byte.toNat < 128)
    (single : String.utf8EncodeChar character = [byte])
    (member : byte ∈ encode text) :
    character ∈ text := by
  obtain ⟨before, after, same⟩ := List.append_of_mem member
  obtain ⟨first, other, rest, rfl, -, otherSingle, -⟩ :=
    exists_of_encode_eq_append_cons ascii same
  have sameCharacter : [character] = [other] := by
    refine encode_injective ?_
    rw [encode_cons, encode_cons, single, otherSingle]
  obtain rfl := List.singleton_inj.mp sameCharacter
  exact List.mem_append_right _ List.mem_cons_self

/-- The parts around a byte below 128 are texts when the whole is one. -/
theorem isText_of_append_cons
    {before after : List UInt8}
    {byte : UInt8}
    (ascii : byte.toNat < 128)
    (whole : IsText (before ++ byte :: after)) :
    IsText before ∧ IsText after := by
  obtain ⟨text, same⟩ := whole
  obtain ⟨first, character, rest, -, isFirst, -, isRest⟩ :=
    exists_of_encode_eq_append_cons ascii same
  exact ⟨⟨first, isFirst⟩, ⟨rest, isRest⟩⟩

/-- A text of one byte is an ASCII character. -/
theorem ascii_of_isText_singleton
    {byte : UInt8}
    (isText : IsText [byte]) :
    byte.toNat < 128 := by
  obtain ⟨text, same⟩ := isText
  match text with
  | [] => cases same
  | character :: text =>
      have lengths := congrArg List.length same
      rw [encode_cons, List.length_append, String.length_utf8EncodeChar,
        List.length_singleton] at lengths
      have size : character.utf8Size = 1 := by
        have := character.utf8Size_pos
        omega
      have small := UInt32.le_iff_toNat_le.mp (Char.utf8Size_eq_one_iff.mp size)
      rw [encode_cons, String.utf8EncodeChar_eq_singleton size] at same
      rw [← (List.cons.inj same).1, UInt32.toNat_toUInt8]
      exact Nat.lt_of_le_of_lt (Nat.mod_le _ _) (Nat.lt_succ_of_le small)

end Utf8
end Foundation
