import Mathlib.Data.List.Basic
import Mathlib.Logic.Function.Basic

/-!
# Strands

Handlers are posted to strands.  A strand runs its handlers one at a time, in
the order in which they were posted to it, and different strands run side by
side.  A handler may leave one mark while it runs.  The logs of all strands keep
what was posted, begun and marked, in the order in which it happened.
-/

namespace Foundation

/-- The handlers of all strands. -/
structure Strands (κ τ : Type) where
  queue : κ → List τ := fun _ => []
  running : κ → Option (τ × Bool) := fun _ => none
  posted : List τ := []
  begun : List τ := []
  marked : List τ := []

namespace Strands

variable {κ τ : Type} [DecidableEq κ]

/-- Post a handler to a strand. -/
def post (key : κ) (handler : τ) (strands : Strands κ τ) : Strands κ τ :=
  { strands with
    queue := Function.update strands.queue key (strands.queue key ++ [handler])
    posted := strands.posted ++ [handler] }

/-- A strand that is free takes its next handler. -/
def take (key : κ) (strands : Strands κ τ) : Option (τ × Strands κ τ) :=
  match strands.running key, strands.queue key with
  | none, handler :: rest =>
      some (handler,
        { strands with
          queue := Function.update strands.queue key rest
          running := Function.update strands.running key (some (handler, false))
          begun := strands.begun ++ [handler] })
  | _, _ => none

/-- The handler of a strand leaves its mark. -/
def mark (key : κ) (strands : Strands κ τ) : Option (Strands κ τ) :=
  match strands.running key with
  | some (handler, false) =>
      some { strands with
        running := Function.update strands.running key (some (handler, true))
        marked := strands.marked ++ [handler] }
  | _ => none

/-- The handler of a strand ends. -/
def finish (key : κ) (strands : Strands κ τ) : Strands κ τ :=
  { strands with running := Function.update strands.running key none }

/-- What a log says about one strand. -/
def onStrand (strandOf : τ → κ) (key : κ) (log : List τ) : List τ :=
  log.filter fun handler => strandOf handler = key

@[simp] theorem onStrand_append
    (strandOf : τ → κ)
    (key : κ)
    (left right : List τ) :
    onStrand strandOf key (left ++ right) =
      onStrand strandOf key left ++ onStrand strandOf key right :=
  List.filter_append ..

@[simp] theorem onStrand_singleton_self
    (strandOf : τ → κ)
    (handler : τ) :
    onStrand strandOf (strandOf handler) [handler] = [handler] := by
  simp [onStrand]

theorem onStrand_singleton_of_ne
    {strandOf : τ → κ}
    {key : κ}
    {handler : τ}
    (other : strandOf handler ≠ key) :
    onStrand strandOf key [handler] = [] := by
  simp [onStrand, other]

theorem mem_onStrand
    {strandOf : τ → κ}
    {key : κ}
    {log : List τ}
    {handler : τ} :
    handler ∈ onStrand strandOf key log ↔
      handler ∈ log ∧ strandOf handler = key := by
  simp [onStrand]

/-- The marks of a strand follow its handlers; the one that runs may not have
left its mark yet. -/
def MarksFollow (marks begun : List τ) : Option (τ × Bool) → Prop
  | some (handler, false) =>
      ∃ earlier, begun = earlier ++ [handler] ∧ marks.Sublist earlier
  | _ => marks.Sublist begun

theorem MarksFollow.sublist
    {marks begun : List τ}
    {running : Option (τ × Bool)}
    (follow : MarksFollow marks begun running) :
    marks.Sublist begun := by
  unfold MarksFollow at follow
  split at follow
  next handler =>
    obtain ⟨earlier, rfl, sublist⟩ := follow
    exact sublist.trans (List.sublist_append_left earlier [handler])
  next => exact follow

/-- Every strand has begun its handlers in posting order, the rest is queued,
and the marks follow. -/
structure Ordered (strandOf : τ → κ) (strands : Strands κ τ) : Prop where
  begun : ∀ key, onStrand strandOf key strands.posted =
    onStrand strandOf key strands.begun ++ strands.queue key
  marks : ∀ key, MarksFollow (onStrand strandOf key strands.marked)
    (onStrand strandOf key strands.begun) (strands.running key)

theorem ordered_empty (strandOf : τ → κ) :
    Ordered strandOf ({} : Strands κ τ) :=
  ⟨fun _ => rfl, fun _ => List.Sublist.refl _⟩

theorem Ordered.post
    {strandOf : τ → κ}
    {strands : Strands κ τ}
    (ordered : Ordered strandOf strands)
    (handler : τ) :
    Ordered strandOf (strands.post (strandOf handler) handler) := by
  refine ⟨?_, ordered.marks⟩
  intro key
  dsimp only [Strands.post]
  rw [onStrand_append, ordered.begun key]
  by_cases same : strandOf handler = key
  · subst same
    rw [Function.update_self, onStrand_singleton_self, List.append_assoc]
  · rw [Function.update_of_ne (Ne.symm same), onStrand_singleton_of_ne same,
      List.append_nil]

/-- What `take` has done. -/
theorem take_eq_some_iff
    {key : κ}
    {strands next : Strands κ τ}
    {handler : τ} :
    strands.take key = some (handler, next) ↔
      strands.running key = none ∧
        ∃ rest, strands.queue key = handler :: rest ∧
          next =
            { strands with
              queue := Function.update strands.queue key rest
              running :=
                Function.update strands.running key (some (handler, false))
              begun := strands.begun ++ [handler] } := by
  unfold take
  cases free : strands.running key with
  | some occupied => simp
  | none =>
      cases waiting : strands.queue key with
      | nil => simp
      | cons first rest =>
          simp only [Option.some.injEq, Prod.mk.injEq, true_and,
            List.cons.injEq, ↓existsAndEq, and_true]
          constructor
          · rintro ⟨rfl, rfl⟩
            exact ⟨rfl, rfl⟩
          · rintro ⟨rfl, rfl⟩
            exact ⟨rfl, rfl⟩

/-- A handler in the queue of a strand was posted to it. -/
theorem Ordered.mem_queue
    {strandOf : τ → κ}
    {strands : Strands κ τ}
    (ordered : Ordered strandOf strands)
    {key : κ}
    {handler : τ}
    (queued : handler ∈ strands.queue key) :
    handler ∈ strands.posted ∧ strandOf handler = key := by
  rw [← mem_onStrand, ordered.begun key]
  exact List.mem_append_right _ queued

theorem Ordered.take
    {strandOf : τ → κ}
    {strands next : Strands κ τ}
    {key : κ}
    {handler : τ}
    (ordered : Ordered strandOf strands)
    (taken : strands.take key = some (handler, next)) :
    Ordered strandOf next := by
  obtain ⟨free, rest, waiting, rfl⟩ := take_eq_some_iff.mp taken
  have own : strandOf handler = key :=
    (ordered.mem_queue (waiting ▸ List.mem_cons_self)).2
  subst own
  constructor
  · intro other
    dsimp only
    rw [onStrand_append, ordered.begun other]
    by_cases same : strandOf handler = other
    · subst same
      rw [Function.update_self, onStrand_singleton_self, waiting,
        List.append_assoc, List.singleton_append]
    · rw [Function.update_of_ne (Ne.symm same), onStrand_singleton_of_ne same,
        List.append_nil]
  · intro other
    have before := ordered.marks other
    dsimp only
    rw [onStrand_append]
    by_cases same : strandOf handler = other
    · subst same
      rw [Function.update_self, onStrand_singleton_self]
      exact ⟨_, rfl, before.sublist⟩
    · rw [Function.update_of_ne (Ne.symm same), onStrand_singleton_of_ne same,
        List.append_nil]
      exact before

/-- What `mark` has done. -/
theorem mark_eq_some_iff
    {key : κ}
    {strands next : Strands κ τ} :
    strands.mark key = some next ↔
      ∃ handler, strands.running key = some (handler, false) ∧
        next =
          { strands with
            running :=
              Function.update strands.running key (some (handler, true))
            marked := strands.marked ++ [handler] } := by
  unfold mark
  split
  next handler isRunning =>
    simp only [isRunning, Option.some.injEq, Prod.mk.injEq, and_true,
      ↓existsAndEq, true_and]
    exact eq_comm
  next noneUnmarked =>
    simp only [false_iff, not_exists, reduceCtorEq]
    rintro handler ⟨isRunning, -⟩
    exact noneUnmarked handler isRunning

theorem Ordered.mark
    {strandOf : τ → κ}
    {strands next : Strands κ τ}
    {key : κ}
    (ordered : Ordered strandOf strands)
    (done : strands.mark key = some next) :
    Ordered strandOf next := by
  obtain ⟨handler, isRunning, rfl⟩ := mark_eq_some_iff.mp done
  refine ⟨ordered.begun, ?_⟩
  have atKey := ordered.marks key
  rw [isRunning] at atKey
  obtain ⟨earlier, begunAtKey, sublist⟩ := atKey
  have own : strandOf handler = key := by
    have member : handler ∈ onStrand strandOf key strands.begun := by
      rw [begunAtKey]
      simp
    exact (mem_onStrand.mp member).2
  subst own
  intro other
  dsimp only
  rw [onStrand_append]
  by_cases same : strandOf handler = other
  · subst same
    rw [Function.update_self, onStrand_singleton_self, begunAtKey]
    exact sublist.append (List.Sublist.refl _)
  · rw [Function.update_of_ne (Ne.symm same), onStrand_singleton_of_ne same,
      List.append_nil]
    exact ordered.marks other

theorem Ordered.finish
    {strandOf : τ → κ}
    {strands : Strands κ τ}
    (ordered : Ordered strandOf strands)
    (key : κ) :
    Ordered strandOf (strands.finish key) := by
  refine ⟨ordered.begun, ?_⟩
  intro other
  dsimp only [Strands.finish]
  by_cases same : other = key
  · subst same
    rw [Function.update_self]
    exact (ordered.marks other).sublist
  · rw [Function.update_of_ne same]
    exact ordered.marks other

/-! ### Handlers that share a strand -/

theorem Ordered.begun_subset
    {strandOf : τ → κ}
    {strands : Strands κ τ}
    (ordered : Ordered strandOf strands) :
    strands.begun ⊆ strands.posted := by
  intro handler member
  have onOwn : handler ∈ onStrand strandOf (strandOf handler) strands.begun :=
    mem_onStrand.mpr ⟨member, rfl⟩
  have posted :
      handler ∈ onStrand strandOf (strandOf handler) strands.posted := by
    rw [ordered.begun]
    exact List.mem_append_left _ onOwn
  exact (mem_onStrand.mp posted).1

theorem Ordered.marked_subset
    {strandOf : τ → κ}
    {strands : Strands κ τ}
    (ordered : Ordered strandOf strands) :
    strands.marked ⊆ strands.begun := by
  intro handler member
  have onOwn : handler ∈ onStrand strandOf (strandOf handler) strands.marked :=
    mem_onStrand.mpr ⟨member, rfl⟩
  have sublist := (ordered.marks (strandOf handler)).sublist
  exact (mem_onStrand.mp (sublist.subset onOwn)).1

/-- When all selected handlers of a log share a strand, they can be selected on
that strand. -/
theorem filter_onStrand
    {strandOf : τ → κ}
    {selected : τ → Bool}
    {key : κ}
    {log : List τ}
    (shared : ∀ handler ∈ log, selected handler = true →
      strandOf handler = key) :
    (onStrand strandOf key log).filter selected = log.filter selected := by
  unfold onStrand
  rw [List.filter_filter]
  apply List.filter_congr
  intro handler member
  cases chosen : selected handler with
  | false => simp
  | true => simp [shared handler member chosen]

/-- Handlers that share a strand are begun in posting order, without gaps. -/
theorem Ordered.begun_inOrder
    {strandOf : τ → κ}
    {strands : Strands κ τ}
    {selected : τ → Bool}
    {key : κ}
    (ordered : Ordered strandOf strands)
    (shared : ∀ handler ∈ strands.posted, selected handler = true →
      strandOf handler = key) :
    strands.begun.filter selected <+: strands.posted.filter selected := by
  have sharedBegun : ∀ handler ∈ strands.begun, selected handler = true →
      strandOf handler = key :=
    fun handler member => shared handler (ordered.begun_subset member)
  rw [← filter_onStrand shared, ← filter_onStrand sharedBegun,
    ordered.begun key, List.filter_append]
  exact List.prefix_append _ _

/-- Handlers that share a strand leave their marks in the order in which they
were begun. -/
theorem Ordered.marked_inOrder
    {strandOf : τ → κ}
    {strands : Strands κ τ}
    {selected : τ → Bool}
    {key : κ}
    (ordered : Ordered strandOf strands)
    (shared : ∀ handler ∈ strands.posted, selected handler = true →
      strandOf handler = key) :
    (strands.marked.filter selected).Sublist
      (strands.begun.filter selected) := by
  have sharedBegun : ∀ handler ∈ strands.begun, selected handler = true →
      strandOf handler = key :=
    fun handler member => shared handler (ordered.begun_subset member)
  have sharedMarked : ∀ handler ∈ strands.marked, selected handler = true →
      strandOf handler = key :=
    fun handler member => sharedBegun handler (ordered.marked_subset member)
  rw [← filter_onStrand sharedBegun, ← filter_onStrand sharedMarked]
  exact (ordered.marks key).sublist.filter selected

end Strands
end Foundation
