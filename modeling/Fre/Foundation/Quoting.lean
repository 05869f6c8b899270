import Mathlib.Data.List.Basic

/-!
# Literals between quotes

In many languages a string literal stands between two quotes and a doubled
quote inside it denotes one.  `split` cuts a text by this rule into segments
that are alternately outside and inside of a literal; `render` writes segments
as a text.  What was cut renders to the text it was cut from, so the text of a
statement says how often each quote of a literal had to be written.
-/

namespace Foundation
namespace Quoting

variable {α : Type} [DecidableEq α]

/-- Where the lexer stands: outside of a literal, inside, or behind a quote
inside, which closes the literal unless another one follows. -/
inductive Mode where
  | outside
  | inside
  | behindQuote

/-- Put a symbol at the front of the current segment. -/
def extend (symbol : α) (segments : List α × List (List α)) :
    List α × List (List α) :=
  (symbol :: segments.1, segments.2)

/-- Close the current segment. -/
def cut (segments : List α × List (List α)) : List α × List (List α) :=
  ([], segments.1 :: segments.2)

/-- The rest of the current segment and the segments after it; none when the
last literal is not closed. -/
def splitFrom (quote : α) :
    Mode → List α → Option (List α × List (List α))
  | .outside, [] => some ([], [])
  | .inside, [] => none
  | .behindQuote, [] => some ([], [[]])
  | .outside, symbol :: rest =>
      if symbol = quote then (splitFrom quote .inside rest).map cut
      else (splitFrom quote .outside rest).map (extend symbol)
  | .inside, symbol :: rest =>
      if symbol = quote then splitFrom quote .behindQuote rest
      else (splitFrom quote .inside rest).map (extend symbol)
  | .behindQuote, symbol :: rest =>
      if symbol = quote then
        (splitFrom quote .inside rest).map (extend symbol)
      else
        (splitFrom quote .outside rest).map fun segments =>
          cut (extend symbol segments)

/-- The segments of a text, alternately outside and inside of a literal. -/
def split (quote : α) (text : List α) : Option (List (List α)) :=
  (splitFrom quote .outside text).map fun segments =>
    segments.1 :: segments.2

/-- Every quote doubled. -/
def double (quote : α) : List α → List α
  | [] => []
  | symbol :: rest =>
      if symbol = quote then symbol :: symbol :: double quote rest
      else symbol :: double quote rest

/-- Segments as a text. -/
def render (quote : α) : List (List α) → List α
  | [] => []
  | [text] => text
  | text :: value :: rest =>
      text ++ quote :: (double quote value ++ quote :: render quote rest)

theorem render_cons_cons (quote symbol : α) (text : List α)
    (rest : List (List α)) :
    render quote ((symbol :: text) :: rest) =
      symbol :: render quote (text :: rest) := by
  cases rest with
  | nil => rfl
  | cons value rest => rfl

/-- The text behind the current position, from the segments. -/
def renderFrom (quote : α) : Mode → List α × List (List α) → List α
  | .outside, segments => render quote (segments.1 :: segments.2)
  | .inside, segments =>
      double quote segments.1 ++ quote :: render quote segments.2
  | .behindQuote, segments =>
      (double quote segments.1 ++ quote :: render quote segments.2).tail

theorem renderFrom_of_splitFrom
    {quote : α}
    {mode : Mode}
    {text : List α}
    {segments : List α × List (List α)}
    (read : splitFrom quote mode text = some segments) :
    renderFrom quote mode segments = text ∧
      (mode = .behindQuote →
        renderFrom quote .inside segments = quote :: text) := by
  induction text generalizing mode segments with
  | nil =>
      cases mode <;> cases read
      · exact ⟨rfl, nofun⟩
      · exact ⟨rfl, fun _ => rfl⟩
  | cons symbol rest inductionHypothesis =>
      cases mode with
      | outside =>
          refine ⟨?_, nofun⟩
          unfold splitFrom at read
          split at read
          · next isQuote =>
              obtain ⟨inner, innerRead, rfl⟩ := Option.map_eq_some_iff.mp read
              rw [← (inductionHypothesis innerRead).1, isQuote]
              rfl
          · obtain ⟨inner, innerRead, rfl⟩ := Option.map_eq_some_iff.mp read
            rw [← (inductionHypothesis innerRead).1]
            exact render_cons_cons quote symbol inner.1 inner.2
      | inside =>
          refine ⟨?_, nofun⟩
          unfold splitFrom at read
          split at read
          · next isQuote =>
              rw [isQuote]
              exact (inductionHypothesis read).2 rfl
          · next notQuote =>
              obtain ⟨inner, innerRead, rfl⟩ := Option.map_eq_some_iff.mp read
              rw [← (inductionHypothesis innerRead).1]
              simp [renderFrom, extend, double, notQuote]
      | behindQuote =>
          have whole : renderFrom quote .inside segments =
              quote :: symbol :: rest := by
            unfold splitFrom at read
            split at read
            · next isQuote =>
                obtain ⟨inner, innerRead, rfl⟩ :=
                  Option.map_eq_some_iff.mp read
                rw [← (inductionHypothesis innerRead).1]
                simp [renderFrom, extend, double, isQuote]
            · obtain ⟨inner, innerRead, rfl⟩ :=
                Option.map_eq_some_iff.mp read
              rw [← (inductionHypothesis innerRead).1]
              exact congrArg (quote :: ·)
                (render_cons_cons quote symbol inner.1 inner.2)
          exact ⟨congrArg List.tail whole, fun _ => whole⟩

/-- What was cut renders to the text it was cut from. -/
theorem render_of_split
    {quote : α}
    {text : List α}
    {segments : List (List α)}
    (read : split quote text = some segments) :
    render quote segments = text := by
  obtain ⟨inner, innerRead, rfl⟩ := Option.map_eq_some_iff.mp read
  exact (renderFrom_of_splitFrom innerRead).1

/-! ## Reading what was rendered -/

theorem splitFrom_outside_append
    {quote : α}
    {text : List α}
    (free : quote ∉ text)
    (rest : List α) :
    splitFrom quote .outside (text ++ rest) =
      (splitFrom quote .outside rest).map fun segments =>
        (text ++ segments.1, segments.2) := by
  induction text with
  | nil => simp
  | cons symbol text inductionHypothesis =>
      rw [List.mem_cons, not_or] at free
      rw [List.cons_append, splitFrom, if_neg (Ne.symm free.1),
        inductionHypothesis free.2, Option.map_map]
      rfl

theorem splitFrom_inside_double
    (quote : α)
    (value rest : List α) :
    splitFrom quote .inside (double quote value ++ rest) =
      (splitFrom quote .inside rest).map fun segments =>
        (value ++ segments.1, segments.2) := by
  induction value with
  | nil => simp [double]
  | cons symbol value inductionHypothesis =>
      by_cases isQuote : symbol = quote
      · simp only [double, if_pos isQuote, List.cons_append, splitFrom]
        rw [inductionHypothesis, Option.map_map]
        rfl
      · simp only [double, if_neg isQuote, List.cons_append, splitFrom]
        rw [inductionHypothesis, Option.map_map]
        rfl

/-- Segments that can be told apart in the text: no quote outside of the
literals, and some symbol between any two of them. -/
def Separated (quote : α) : List (List α) → Prop
  | [] => False
  | [text] => quote ∉ text
  | text :: _ :: rest =>
      quote ∉ text ∧ rest.head? ≠ some [] ∧ Separated quote rest

theorem splitFrom_behindQuote_render
    {quote : α}
    {segments : List (List α)}
    (separated : Separated quote segments)
    (nonempty : segments.head? ≠ some []) :
    splitFrom quote .behindQuote (render quote segments) =
      (splitFrom quote .outside (render quote segments)).map cut := by
  cases segments with
  | nil => exact absurd separated id
  | cons text rest =>
      cases text with
      | nil => exact absurd rfl nonempty
      | cons symbol text =>
          have notQuote : symbol ≠ quote := by
            rintro rfl
            cases rest with
            | nil => exact separated List.mem_cons_self
            | cons value rest => exact separated.1 List.mem_cons_self
          rw [render_cons_cons, splitFrom, if_neg notQuote, splitFrom,
            if_neg notQuote, Option.map_map]
          rfl

/-- Segments that can be told apart are read back. -/
theorem split_render
    {quote : α}
    {segments : List (List α)}
    (separated : Separated quote segments) :
    split quote (render quote segments) = some segments := by
  suffices readBack : splitFrom quote .outside (render quote segments) =
      segments.head?.map fun text => (text, segments.tail) by
    rw [split, readBack]
    cases segments with
    | nil => exact absurd separated id
    | cons text rest => rfl
  induction segments using render.induct with
  | case1 => exact absurd separated id
  | case2 text =>
      have alone := splitFrom_outside_append separated []
      rw [List.append_nil] at alone
      rw [render, alone]
      simp [splitFrom]
  | case3 text value rest inductionHypothesis =>
      obtain ⟨free, nonempty, restSeparated⟩ := separated
      rw [render, splitFrom_outside_append free, splitFrom, if_pos rfl,
        splitFrom_inside_double, splitFrom, if_pos rfl,
        splitFrom_behindQuote_render restSeparated nonempty,
        inductionHypothesis restSeparated]
      cases rest with
      | nil => exact absurd restSeparated id
      | cons next rest => simp [cut]

/-! ## Values put between quotes as they are -/

/-- Segments as a text in which no quote is doubled. -/
def join (quote : α) : List (List α) → List α
  | [] => []
  | [text] => text
  | text :: value :: rest =>
      text ++ quote :: (value ++ quote :: join quote rest)

/-- The segments inside of a literal. -/
def literals : List (List α) → List (List α)
  | [] => []
  | [_] => []
  | _ :: value :: rest => value :: literals rest

/-- Doubling adds one symbol for each quote. -/
theorem length_double (quote : α) (value : List α) :
    (double quote value).length = value.length + value.count quote := by
  induction value with
  | nil => rfl
  | cons symbol value inductionHypothesis =>
      by_cases isQuote : symbol = quote
      · subst isQuote
        simp only [double, if_pos, List.length_cons, inductionHypothesis,
          List.count_cons_self]
        omega
      · simp only [double, if_neg isQuote, List.length_cons,
          inductionHypothesis, List.count_cons_of_ne isQuote]
        omega

theorem length_render (quote : α) (segments : List (List α)) :
    (render quote segments).length =
      (join quote segments).length +
        (literals segments).flatten.count quote := by
  induction segments using render.induct with
  | case1 => rfl
  | case2 text => rfl
  | case3 text value rest inductionHypothesis =>
      simp only [render, join, literals, List.length_append,
        List.length_cons, length_double, inductionHypothesis,
        List.flatten_cons, List.count_append]
      omega

theorem double_eq_self
    {quote : α}
    {value : List α}
    (free : quote ∉ value) :
    double quote value = value := by
  induction value with
  | nil => rfl
  | cons symbol value inductionHypothesis =>
      rw [List.mem_cons, not_or] at free
      rw [double, if_neg (Ne.symm free.1), inductionHypothesis free.2]

theorem render_eq_join
    {quote : α}
    {segments : List (List α)}
    (free : ∀ value ∈ literals segments, quote ∉ value) :
    render quote segments = join quote segments := by
  induction segments using render.induct with
  | case1 => rfl
  | case2 text => rfl
  | case3 text value rest inductionHypothesis =>
      have valueFree := free value List.mem_cons_self
      have restFree := fun other member =>
        free other (List.mem_cons_of_mem value member)
      rw [render, join, double_eq_self valueFree, inductionHypothesis restFree]

/-- Values without quotes are read back. -/
theorem split_join
    {quote : α}
    {segments : List (List α)}
    (separated : Separated quote segments)
    (free : ∀ value ∈ literals segments, quote ∉ value) :
    split quote (join quote segments) = some segments := by
  rw [← render_eq_join free]
  exact split_render separated

/-- A text no longer than the joined segments from which they are read: then
no value has a quote, and the text is not shorter either. -/
theorem free_of_split
    {quote : α}
    {text : List α}
    {segments : List (List α)}
    (notLonger : text.length ≤ (join quote segments).length)
    (read : split quote text = some segments) :
    (∀ value ∈ literals segments, quote ∉ value) ∧
      text.length = (join quote segments).length := by
  have rendered := congrArg List.length (render_of_split read)
  rw [length_render] at rendered
  refine ⟨?_, by omega⟩
  intro value member quoteMember
  have occurs : 0 < (literals segments).flatten.count quote :=
    List.count_pos_iff.mpr (List.mem_flatten.mpr ⟨value, member, quoteMember⟩)
  omega

end Quoting
end Foundation
