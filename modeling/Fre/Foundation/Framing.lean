import Fre.Foundation.Lines

/-!
# Messages with a head and a body

A head is a sequence of lines, each with two symbols at its end, and then such
an end alone.  The head says how long the body is that follows.  A message that
was written in this way is read back, whatever stands in its body and after it.
-/

namespace Foundation
namespace Framing

open Lines

variable {α : Type}

/-- The lines of a head, and the end of the head. -/
def writeHead (mark separator : α) : List (List α) → List α
  | [] => [mark, separator]
  | line :: rest => line ++ mark :: separator :: writeHead mark separator rest

/-- A line that can stand in a head. -/
structure HeadLine (separator : α) (line : List α) : Prop where
  nonempty : line ≠ []
  free : separator ∉ line

variable [DecidableEq α]

/-- The lines of a head up to the first empty one, without their ends. -/
def headLines (mark separator : α) (head : List α) : List (List α) :=
  ((getLines separator head).map (dropMark mark)).takeWhile (· ≠ [])

/-- A message read from a stream: the lines of its head, and its body, which has
the length that the head declares. -/
def readMessage (mark separator : α) (declared : List (List α) → Option Nat)
    (stream : List α) : Option (List (List α) × List α) := do
  let (head, rest) ← readUntil [mark, separator, mark, separator] stream
  let length ← declared (headLines mark separator head)
  if rest.length < length then none
  else return (headLines mark separator head, rest.take length)

section Heads

variable {mark separator : α}

/-- A line has no end of a head in it. -/
theorem readUntil_append
    {line : List α}
    (distinct : mark ≠ separator)
    (free : separator ∉ line)
    (rest : List α) :
    readUntil [mark, separator, mark, separator] (line ++ mark :: rest) =
      (readUntil [mark, separator, mark, separator] (mark :: rest)).map
        fun (before, later) => (line ++ before, later) := by
  induction line with
  | nil => simp
  | cons symbol line inductionHypothesis =>
      rw [List.mem_cons, not_or] at free
      -- a separator would be the second symbol of the delimiter
      have notHere : [mark, separator, mark, separator].isPrefixOf
          (symbol :: (line ++ mark :: rest)) = false := by
        cases line with
        | nil => simp [List.isPrefixOf, Ne.symm distinct]
        | cons second line =>
            have other : separator ≠ second := fun same =>
              free.2 (same ▸ List.mem_cons_self)
            simp [List.isPrefixOf, other]
      rw [List.cons_append, readUntil, notHere, inductionHypothesis free.2]
      simp [Option.map_map, Function.comp_def]

/-- The end of a line is not the end of the head when another line follows. -/
theorem readUntil_lineEnd
    {line : List α}
    (distinct : mark ≠ separator)
    (allowed : HeadLine separator line)
    (rest : List α) :
    readUntil [mark, separator, mark, separator]
        (mark :: separator :: (line ++ mark :: rest)) =
      (readUntil [mark, separator, mark, separator] (line ++ mark :: rest)).map
        fun (before, later) => (mark :: separator :: before, later) := by
  obtain ⟨first, others, rfl⟩ := List.exists_cons_of_ne_nil allowed.nonempty
  have free := allowed.free
  rw [List.mem_cons, not_or] at free
  have notHere : [mark, separator, mark, separator].isPrefixOf
      (mark :: separator :: (first :: others ++ mark :: rest)) = false := by
    cases others with
    | nil => simp [List.isPrefixOf, Ne.symm distinct]
    | cons second others =>
        have other : separator ≠ second := fun same =>
          free.2 (same ▸ List.mem_cons_self)
        simp [List.isPrefixOf, other]
  have notThere : [mark, separator, mark, separator].isPrefixOf
      (separator :: (first :: others ++ mark :: rest)) = false := by
    simp [List.isPrefixOf, distinct]
  rw [readUntil, notHere, readUntil, notThere]
  simp [Option.map_map, Function.comp_def]

/-- A head is read up to its end. -/
theorem readUntil_writeHead
    {first : List α}
    {others : List (List α)}
    (distinct : mark ≠ separator)
    (firstAllowed : HeadLine separator first)
    (othersAllowed : ∀ line ∈ others, HeadLine separator line)
    (body : List α) :
    readUntil [mark, separator, mark, separator]
        (writeHead mark separator (first :: others) ++ body) =
      some (writeHead mark separator (first :: others), body) := by
  induction others generalizing first with
  | nil =>
      have split := readUntil_append distinct firstAllowed.free
        (separator :: mark :: separator :: body)
      simp only [writeHead, List.append_assoc, List.cons_append, List.nil_append,
        split]
      simp [readUntil]
  | cons second others inductionHypothesis =>
      have secondAllowed := othersAllowed second List.mem_cons_self
      have later := inductionHypothesis secondAllowed fun line member =>
        othersAllowed line (List.mem_cons_of_mem second member)
      simp only [writeHead, List.append_assoc, List.cons_append] at later ⊢
      rw [readUntil_append distinct firstAllowed.free,
        readUntil_lineEnd distinct secondAllowed, later]
      rfl

/-- The lines of a head are read back, each with its mark. -/
theorem getLines_writeHead
    {lines : List (List α)}
    (distinct : mark ≠ separator)
    (free : ∀ line ∈ lines, separator ∉ line) :
    getLines separator (writeHead mark separator lines) =
      (lines ++ [[]]).map (· ++ [mark]) := by
  induction lines with
  | nil => simp [writeHead, getLines, distinct]
  | cons line lines inductionHypothesis =>
      have lineFree : separator ∉ line ++ [mark] := by
        simp [free line List.mem_cons_self, Ne.symm distinct]
      have first := getLines_append_cons lineFree
        (writeHead mark separator lines)
      rw [List.append_assoc, List.singleton_append] at first
      rw [writeHead, first, inductionHypothesis fun other member =>
        free other (List.mem_cons_of_mem line member)]
      rfl

/-- The lines of a head are read back. -/
theorem headLines_writeHead
    {lines : List (List α)}
    (distinct : mark ≠ separator)
    (allowed : ∀ line ∈ lines, HeadLine separator line) :
    headLines mark separator (writeHead mark separator lines) = lines := by
  have unmarked : (dropMark mark ∘ fun line => line ++ [mark]) = id :=
    funext fun line => dropMark_append line
  rw [headLines, getLines_writeHead distinct fun line member =>
      (allowed line member).free,
    List.map_map, unmarked, List.map_id, List.takeWhile_append_of_pos]
  · simp
  · intro line member
    simpa using (allowed line member).nonempty

/-- A message is read back, whatever follows it. -/
theorem readMessage_writeHead
    {first : List α}
    {others : List (List α)}
    {declared : List (List α) → Option Nat}
    {body : List α}
    (distinct : mark ≠ separator)
    (firstAllowed : HeadLine separator first)
    (othersAllowed : ∀ line ∈ others, HeadLine separator line)
    (length : declared (first :: others) = some body.length)
    (after : List α) :
    readMessage mark separator declared
        (writeHead mark separator (first :: others) ++ (body ++ after)) =
      some (first :: others, body) := by
  have allowed : ∀ line ∈ first :: others, HeadLine separator line :=
    List.forall_mem_cons.mpr ⟨firstAllowed, othersAllowed⟩
  have lines := headLines_writeHead distinct allowed
  rw [readMessage, readUntil_writeHead distinct firstAllowed othersAllowed]
  simp [lines, length]

end Heads

end Framing
end Foundation
