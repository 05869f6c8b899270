import Mathlib.Data.List.Basic

/-!
# Lines of a text

A text read line by line, as `std::getline` reads it: a separator ends a line,
and the end of the text ends a last line that is not empty.  Where a line may
also end in a mark before the separator, the mark is taken off; a text written
with either kind of line ends then gives back its entries.  A text can also be
read up to a delimiter of several symbols.
-/

namespace Foundation
namespace Lines

variable {α : Type}
variable [DecidableEq α]

/-- The next line and the text after it; none at the end of the text. -/
def getLine (separator : α) : List α → Option (List α × List α)
  | [] => none
  | symbol :: rest =>
      if symbol = separator then some ([], rest)
      else
        match getLine separator rest with
        | none => some ([symbol], [])
        | some (line, later) => some (symbol :: line, later)

/-- All lines of a text. -/
def getLines (separator : α) : List α → List (List α)
  | [] => []
  | symbol :: rest =>
      if symbol = separator then [] :: getLines separator rest
      else
        match getLines separator rest with
        | [] => [[symbol]]
        | line :: later => (symbol :: line) :: later

/-- What stands up to the end of the first delimiter, and the text after it. -/
def readUntil (delimiter : List α) : List α → Option (List α × List α)
  | [] => none
  | symbol :: rest =>
      if delimiter.isPrefixOf (symbol :: rest) then
        some (delimiter, (symbol :: rest).drop delimiter.length)
      else
        (readUntil delimiter rest).map fun (before, later) =>
          (symbol :: before, later)

/-- A line without the mark at its end. -/
def dropMark (mark : α) (line : List α) : List α :=
  if line.getLast? = some mark then line.dropLast else line

section Reading

variable {separator mark : α}

/-- The lines of a text are those read one after the other. -/
theorem getLines_eq (text : List α) :
    getLines separator text =
      match getLine separator text with
      | none => []
      | some (line, later) => line :: getLines separator later := by
  induction text with
  | nil => rfl
  | cons symbol rest inductionHypothesis =>
      rw [getLines, getLine]
      split
      next => rfl
      next =>
        rw [inductionHypothesis]
        cases getLine separator rest with
        | none => rfl
        | some read => rfl

/-- There is a line before the end of the text. -/
theorem exists_getLine
    {text : List α}
    (nonempty : text ≠ []) :
    ∃ line later, getLine separator text = some (line, later) := by
  obtain ⟨symbol, rest, rfl⟩ := List.exists_cons_of_ne_nil nonempty
  rw [getLine]
  split
  next => exact ⟨_, _, rfl⟩
  next =>
    cases getLine separator rest with
    | none => exact ⟨_, _, rfl⟩
    | some read => exact ⟨_, _, rfl⟩

/-- What is read up to a delimiter is not empty. -/
theorem ne_nil_of_readUntil
    {delimiter text before later : List α}
    (nonempty : delimiter ≠ [])
    (read : readUntil delimiter text = some (before, later)) :
    before ≠ [] := by
  cases text with
  | nil => cases read
  | cons symbol rest =>
      rw [readUntil] at read
      split at read
      next =>
        cases read
        exact nonempty
      next =>
        obtain ⟨found, -, same⟩ := Option.map_eq_some_iff.mp read
        cases same
        exact List.cons_ne_nil _ _

theorem length_of_getLine
    {text line later : List α}
    (read : getLine separator text = some (line, later)) :
    later.length < text.length := by
  induction text generalizing line later with
  | nil => cases read
  | cons symbol rest inductionHypothesis =>
      rw [getLine] at read
      split at read
      next =>
        cases read
        exact Nat.lt_succ_self _
      next =>
        cases readRest : getLine separator rest with
        | none =>
            rw [readRest] at read
            cases read
            exact Nat.succ_pos _
        | some found =>
            obtain ⟨restLine, restLater⟩ := found
            rw [readRest] at read
            cases read
            exact Nat.lt_succ_of_lt (inductionHypothesis readRest)

@[simp] theorem getLines_cons_separator (rest : List α) :
    getLines separator (separator :: rest) = [] :: getLines separator rest := by
  rw [getLines, if_pos rfl]

/-- A line with its end. -/
theorem getLines_append_cons
    {line : List α}
    (free : separator ∉ line)
    (rest : List α) :
    getLines separator (line ++ separator :: rest) =
      line :: getLines separator rest := by
  induction line with
  | nil => rw [List.nil_append, getLines_cons_separator]
  | cons symbol line inductionHypothesis =>
      rw [List.mem_cons, not_or] at free
      rw [List.cons_append, getLines, if_neg (Ne.symm free.1),
        inductionHypothesis free.2]

/-- A last line without an end. -/
theorem getLines_of_not_mem
    {line : List α}
    (free : separator ∉ line)
    (nonempty : line ≠ []) :
    getLines separator line = [line] := by
  induction line with
  | nil => exact absurd rfl nonempty
  | cons symbol line inductionHypothesis =>
      rw [List.mem_cons, not_or] at free
      rw [getLines, if_neg (Ne.symm free.1)]
      cases line with
      | nil => rfl
      | cons second line =>
          rw [inductionHypothesis free.2 (List.cons_ne_nil second line)]

@[simp] theorem dropMark_append (line : List α) :
    dropMark mark (line ++ [mark]) = line := by
  simp [dropMark]

theorem dropMark_of_ne
    {line : List α}
    (unmarked : line.getLast? ≠ some mark) :
    dropMark mark line = line :=
  if_neg unmarked

end Reading

/-! ### Texts with both kinds of line ends -/

/-- An entry that can stand on a line of its own and be read back. -/
structure Entry (separator mark : α) (line : List α) : Prop where
  nonempty : line ≠ []
  free : separator ∉ line
  unmarked : line.getLast? ≠ some mark

/-- The two ends of a line. -/
inductive LineEnd (separator mark : α) : List α → Prop
  | plain : LineEnd separator mark [separator]
  | marked : LineEnd separator mark [mark, separator]

/-- A text that holds entries one per line, with blank lines among them and
with or without an end of the last line. -/
inductive Writes (separator mark : α) : List (List α) → List α → Prop
  | nothing : Writes separator mark [] []
  | blank
      {lineEnd text : List α}
      {entries : List (List α)}
      (ends : LineEnd separator mark lineEnd)
      (rest : Writes separator mark entries text) :
      Writes separator mark entries (lineEnd ++ text)
  | entry
      {line lineEnd text : List α}
      {entries : List (List α)}
      (allowed : Entry separator mark line)
      (ends : LineEnd separator mark lineEnd)
      (rest : Writes separator mark entries text) :
      Writes separator mark (line :: entries) (line ++ lineEnd ++ text)
  | last
      {line : List α}
      (allowed : Entry separator mark line) :
      Writes separator mark [line] line

/-- The lines of a text that are not empty, without their marks. -/
def entries (separator mark : α) (text : List α) : List (List α) :=
  ((getLines separator text).map (dropMark mark)).filter (· ≠ [])

section Entries

variable {separator mark : α}

/-- The first line of a text, with either of its ends. -/
theorem entries_append_lineEnd
    {line lineEnd : List α}
    (distinct : mark ≠ separator)
    (free : separator ∉ line)
    (unmarked : line.getLast? ≠ some mark)
    (ends : LineEnd separator mark lineEnd)
    (text : List α) :
    entries separator mark (line ++ lineEnd ++ text) =
      if line = [] then entries separator mark text
      else line :: entries separator mark text := by
  have first : ∃ read,
      getLines separator (line ++ lineEnd ++ text) =
        read :: getLines separator text ∧ dropMark mark read = line := by
    cases ends with
    | plain =>
        refine ⟨line, ?_, dropMark_of_ne unmarked⟩
        rw [List.append_assoc]
        exact getLines_append_cons free text
    | marked =>
        have markedFree : separator ∉ line ++ [mark] := by
          simp [free, Ne.symm distinct]
        refine ⟨line ++ [mark], ?_, dropMark_append line⟩
        rw [← getLines_append_cons markedFree text]
        simp
  obtain ⟨read, lines, unmarkedRead⟩ := first
  unfold entries
  rw [lines, List.map_cons, unmarkedRead, List.filter_cons]
  split <;> simp_all

/-- What was written is read back. -/
theorem entries_of_writes
    (distinct : mark ≠ separator)
    {written : List (List α)}
    {text : List α}
    (writes : Writes separator mark written text) :
    entries separator mark text = written := by
  induction writes with
  | nothing => rfl
  | blank ends rest inductionHypothesis =>
      have first := entries_append_lineEnd distinct
        List.not_mem_nil (by simp) ends
      rw [← List.nil_append (_ ++ _), ← List.append_assoc, first, if_pos rfl,
        inductionHypothesis]
  | entry allowed ends rest inductionHypothesis =>
      rw [entries_append_lineEnd distinct allowed.free allowed.unmarked ends,
        if_neg allowed.nonempty, inductionHypothesis]
  | @last line allowed =>
      have lines := getLines_of_not_mem allowed.free allowed.nonempty
      unfold entries
      rw [lines, List.map_singleton, dropMark_of_ne allowed.unmarked]
      simp [allowed.nonempty]

end Entries

end Lines
end Foundation
