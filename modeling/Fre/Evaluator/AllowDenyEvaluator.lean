import Fre.Core.Error
import Fre.Core.Event
import Fre.Core.Verdict
import Fre.Foundation.Lines
import Mathlib.Data.Finset.Lattice.Lemmas

/-!
# The allow and deny lists

`AllowDenyEvaluator` reads two files of entries, one per line, when it is made,
and looks the entity or the tenant of an event up in them.  An entry of the
allow list wins over the same entry of the deny list.  A text is the sequence
of its bytes; the files are those that can be opened.
-/

namespace Fre
namespace Evaluator

open Foundation

/-- `AllowDenyMatchField`. -/
inductive AllowDenyMatchField
  | entityId
  | tenantId
  deriving DecidableEq, Repr

/-- `AllowDenyEvaluatorConfig`. -/
structure AllowDenyEvaluatorConfig where
  allowListPath : String := ""
  denyListPath : String := ""
  matchField : AllowDenyMatchField := .entityId
  defaultVerdict : Verdict := .pass
  evaluatorId : String := "allow_deny"
  deriving DecidableEq

/-- `AllowDenyEvaluator`. -/
structure AllowDenyEvaluator where
  config : AllowDenyEvaluatorConfig
  allowSet : Finset String
  denySet : Finset String
  deriving DecidableEq

namespace AllowDenyEvaluator

/-- The body of the loop over the lines: a carriage return at the end of the
line is taken off, and an empty line is left out. -/
def insertLine (result : Finset String) (line : List Char) : Finset String :=
  let line := Lines.dropMark '\r' line
  if line = [] then result else insert (String.ofList line) result

/-- `AllowDenyEvaluator::load_list`; the error is the text of the exception. -/
def loadList (files : String → Option String) (path : String) :
    Except String (Finset String) :=
  if path = "" then .ok ∅
  else
    match files path with
    | none => .error ("AllowDenyEvaluator: cannot open list file: " ++ path)
    | some text =>
        .ok ((Lines.getLines '\n' text.toList).foldl insertLine ∅)

/-- The constructor; the allow list is read first. -/
def construct
    (files : String → Option String)
    (config : AllowDenyEvaluatorConfig) : Except String AllowDenyEvaluator := do
  let allowSet ← loadList files config.allowListPath
  let denySet ← loadList files config.denyListPath
  return { config := config, allowSet := allowSet, denySet := denySet }

/-- `AllowDenyEvaluator::match_key`. -/
def matchKey (config : AllowDenyEvaluatorConfig) (event : Event) : String :=
  match config.matchField with
  | .entityId => event.entityId
  | .tenantId => event.tenantId

/-- `AllowDenyEvaluator::evaluate`. -/
def evaluate (evaluator : AllowDenyEvaluator) (event : Event) :
    Except EvaluatorError EvaluatorResult :=
  let key := matchKey evaluator.config event
  if evaluator.allowSet ≠ ∅ ∧ key ∈ evaluator.allowSet then
    .ok
      { evaluatorId := evaluator.config.evaluatorId
        verdict := .pass
        reasonCode := some "allow_list_match" }
  else if key ∈ evaluator.denySet then
    .ok
      { evaluatorId := evaluator.config.evaluatorId
        verdict := .block
        reasonCode := some "deny_list_match" }
  else
    .ok
      { evaluatorId := evaluator.config.evaluatorId
        verdict := evaluator.config.defaultVerdict
        reasonCode := some "default" }

/-! ### What the files say -/

/-- A configured list holds these entries: there is no list, or its file holds
them one per line. -/
inductive ListHolds (files : String → Option String) :
    String → List String → Prop
  | noList : ListHolds files "" []
  | file
      {path text : String}
      {entries : List String}
      (configured : path ≠ "")
      (opened : files path = some text)
      (writes : Lines.Writes '\n' '\r' (entries.map String.toList) text.toList) :
      ListHolds files path entries

/-- The verdict that the documentation gives for a key. -/
def expectedVerdict
    (defaultVerdict : Verdict)
    (allowEntries denyEntries : List String)
    (key : String) : Verdict :=
  if key ∈ allowEntries then .pass
  else if key ∈ denyEntries then .block
  else defaultVerdict

section Loading

variable {files : String → Option String}

/-- The loop inserts the entries among the lines. -/
theorem foldl_insertLine (lines : List (List Char)) (before : Finset String) :
    lines.foldl insertLine before =
      before ∪ (((lines.map (Lines.dropMark '\r')).filter (· ≠ [])).map
        String.ofList).toFinset := by
  induction lines generalizing before with
  | nil => simp
  | cons line rest inductionHypothesis =>
      rw [List.foldl_cons, inductionHypothesis, List.map_cons, List.filter_cons]
      unfold insertLine
      by_cases empty : Lines.dropMark '\r' line = []
      · simp [empty]
      · simp [empty]

theorem loadList_of_writes
    {path text : String}
    {entries : List String}
    (configured : path ≠ "")
    (opened : files path = some text)
    (writes : Lines.Writes '\n' '\r' (entries.map String.toList) text.toList) :
    loadList files path = .ok entries.toFinset := by
  have read := Lines.entries_of_writes (by decide) writes
  unfold Lines.entries at read
  rw [loadList, if_neg configured, opened]
  simp only [foldl_insertLine, read, Finset.empty_union, List.map_map]
  congr 2
  simp [Function.comp_def]

/-- The set that is read is the set of the entries. -/
theorem loadList_of_listHolds
    {path : String}
    {entries : List String}
    (holds : ListHolds files path entries) :
    loadList files path = .ok entries.toFinset := by
  cases holds with
  | noList => rfl
  | file configured opened writes =>
      exact loadList_of_writes configured opened writes

end Loading

/-- The precedence of the two sets. -/
theorem evaluate_verdict (evaluator : AllowDenyEvaluator) (event : Event) :
    (evaluate evaluator event).map EvaluatorResult.verdict =
      .ok (if matchKey evaluator.config event ∈ evaluator.allowSet then .pass
        else if matchKey evaluator.config event ∈ evaluator.denySet then .block
        else evaluator.config.defaultVerdict) := by
  have nonempty : matchKey evaluator.config event ∈ evaluator.allowSet →
      evaluator.allowSet ≠ ∅ := fun member => Finset.ne_empty_of_mem member
  unfold evaluate
  by_cases allowed : matchKey evaluator.config event ∈ evaluator.allowSet
  · simp [allowed, nonempty allowed, Except.map]
  · by_cases denied : matchKey evaluator.config event ∈ evaluator.denySet
    · simp [allowed, denied, Except.map]
    · simp [allowed, denied, Except.map]

/-- Each list is read as the set of its entries, and every event is judged by
the entries of the two files. -/
theorem lists_read_exactly
    {files : String → Option String}
    {config : AllowDenyEvaluatorConfig}
    {allowEntries denyEntries : List String}
    (allowHolds : ListHolds files config.allowListPath allowEntries)
    (denyHolds : ListHolds files config.denyListPath denyEntries) :
    loadList files config.allowListPath = .ok allowEntries.toFinset ∧
      loadList files config.denyListPath = .ok denyEntries.toFinset ∧
      ∃ evaluator, construct files config = .ok evaluator ∧
        ∀ event, (evaluate evaluator event).map EvaluatorResult.verdict =
          .ok (expectedVerdict config.defaultVerdict allowEntries denyEntries
            (matchKey config event)) := by
  have allowRead := loadList_of_listHolds allowHolds
  have denyRead := loadList_of_listHolds denyHolds
  refine ⟨allowRead, denyRead,
    ⟨config, allowEntries.toFinset, denyEntries.toFinset⟩, ?_, fun event => ?_⟩
  · simp only [construct, allowRead, denyRead]
    rfl
  · rw [evaluate_verdict]
    simp only [List.mem_toFinset]
    rfl

/-- Two files with mixed line ends: `B` is an entry of both, and the last entry
of the deny list has no line end. -/
def mixedFiles : String → Option String
  | "allow" => some "A\r\n\nB\n"
  | "deny" => some "B\n\r\nC"
  | _ => none

theorem mixedFiles_allow : ListHolds mixedFiles "allow" ["A", "B"] := by
  refine .file (by decide) rfl ?_
  have allowed : ∀ line ∈ [['A'], ['B']], Lines.Entry '\n' '\r' line := by
    intro line member
    constructor <;> revert line <;> decide
  exact .entry (allowed ['A'] (by decide)) .marked
    (.blank .plain (.entry (allowed ['B'] (by decide)) .plain .nothing))

theorem mixedFiles_deny : ListHolds mixedFiles "deny" ["B", "C"] := by
  refine .file (by decide) rfl ?_
  have allowed : ∀ line ∈ [['B'], ['C']], Lines.Entry '\n' '\r' line := by
    intro line member
    constructor <;> revert line <;> decide
  exact .entry (allowed ['B'] (by decide)) .plain
    (.blank .marked (.last (allowed ['C'] (by decide))))

/-- A configuration with both lists. -/
def mixedConfig : AllowDenyEvaluatorConfig where
  allowListPath := "allow"
  denyListPath := "deny"
  defaultVerdict := .flag

/-- `B` passes, `C` is blocked, and the entity on neither list is flagged. -/
theorem lists_read_mixed :
    ∃ evaluator, construct mixedFiles mixedConfig = .ok evaluator ∧
      ["B", "C", "D"].map (fun entity =>
        (evaluate evaluator { tenantId := "t", entityId := entity }).map
          EvaluatorResult.verdict) =
        [.ok .pass, .ok .block, .ok .flag] := by
  obtain ⟨-, -, evaluator, constructed, judged⟩ :=
    @lists_read_exactly mixedFiles mixedConfig ["A", "B"] ["B", "C"]
      mixedFiles_allow mixedFiles_deny
  refine ⟨evaluator, constructed, ?_⟩
  simp only [List.map_cons, List.map_nil, judged]
  decide

end AllowDenyEvaluator
end Evaluator
end Fre
