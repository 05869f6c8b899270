import Mathlib.Data.Option.Basic

/-!
# Code that serves a connection

A handler runs on the state of a service and writes answers to its connection.
It may return, throw, or neither of the two; what it has written and changed
before it throws stays.  The conditions under which it ends in a given way are
computed from its parts.
-/

namespace Foundation
namespace Handlers

/-- The state of a service, and what was written to a connection. -/
structure Session (σ ω : Type) where
  state : σ
  written : List ω := []

/-- A handler; none when it neither returns nor throws. -/
abbrev Handler (ε σ ω : Type) := ExceptT ε (StateT (Session σ ω) Option)

section Parts

variable {ε σ ω α : Type}

/-- Write an answer. -/
def write (answer : ω) : Handler ε σ ω Unit :=
  modify fun session => { session with written := session.written ++ [answer] }

/-- Read the state of the service. -/
def getState : Handler ε σ ω σ :=
  return (← get).state

/-- Replace the state of the service. -/
def setState (state : σ) : Handler ε σ ω Unit :=
  modify fun session => { session with state := state }

/-- Call a function that may not return. -/
def ofOption (result : Option α) : Handler ε σ ω α :=
  ExceptT.mk fun session => result.map fun value => (.ok value, session)

/-- The handler ends, and what holds then depends on how it does. -/
def Ends
    (handler : Handler ε σ ω α)
    (session : Session σ ω)
    (returned : α → Session σ ω → Prop)
    (thrown : ε → Session σ ω → Prop) : Prop :=
  match handler.run.run session with
  | none => False
  | some (.ok value, after) => returned value after
  | some (.error exception, after) => thrown exception after

end Parts

/-! ### The parts of a handler -/

section Rules

variable {ε σ ω α β : Type}
variable {session : Session σ ω}
variable {returned : β → Session σ ω → Prop}
variable {thrown : ε → Session σ ω → Prop}

@[simp] theorem ends_pure (value : β) :
    Ends (pure value) session returned thrown ↔ returned value session :=
  Iff.rfl

@[simp] theorem ends_throw (exception : ε) :
    Ends (throw exception) session returned thrown ↔
      thrown exception session :=
  Iff.rfl

@[simp] theorem ends_bind
    (handler : Handler ε σ ω α)
    (next : α → Handler ε σ ω β) :
    Ends (handler >>= next) session returned thrown ↔
      Ends handler session
        (fun value after => Ends (next value) after returned thrown) thrown := by
  simp only [Ends, ExceptT.run_bind, StateT.run_bind]
  cases handler.run.run session with
  | none => rfl
  | some ended =>
      obtain ⟨result, after⟩ := ended
      cases result with
      | ok value => rfl
      | error exception => rfl

@[simp] theorem ends_tryCatch
    (handler : Handler ε σ ω β)
    (recover : ε → Handler ε σ ω β) :
    Ends (tryCatch handler recover) session returned thrown ↔
      Ends handler session returned
        (fun exception after =>
          Ends (recover exception) after returned thrown) := by
  simp only [Ends, tryCatch, tryCatchThe, MonadExceptOf.tryCatch,
    ExceptT.tryCatch, ExceptT.mk, ExceptT.run, StateT.run_bind]
  cases StateT.run handler session with
  | none => rfl
  | some ended =>
      obtain ⟨result, after⟩ := ended
      cases result with
      | ok value => rfl
      | error exception => rfl

end Rules

section Operations

variable {ε σ ω α : Type}
variable {session : Session σ ω}
variable {thrown : ε → Session σ ω → Prop}

@[simp] theorem ends_write
    {returned : Unit → Session σ ω → Prop}
    (answer : ω) :
    Ends (write answer) session returned thrown ↔
      returned () { session with written := session.written ++ [answer] } :=
  Iff.rfl

@[simp] theorem ends_getState {returned : σ → Session σ ω → Prop} :
    Ends getState session returned thrown ↔ returned session.state session :=
  Iff.rfl

@[simp] theorem ends_setState
    {returned : Unit → Session σ ω → Prop}
    (state : σ) :
    Ends (setState state) session returned thrown ↔
      returned () { session with state := state } :=
  Iff.rfl

theorem ends_ofExcept
    {returned : α → Session σ ω → Prop}
    (result : Except ε α) :
    Ends (ofExcept result) session returned thrown ↔
      (∃ value, result = .ok value ∧ returned value session) ∨
        ∃ exception, result = .error exception ∧ thrown exception session := by
  cases result with
  | ok value => simp [ofExcept]
  | error exception => simp [ofExcept]

@[simp] theorem ends_ofOption
    {returned : α → Session σ ω → Prop}
    (result : Option α) :
    Ends (ofOption result) session returned thrown ↔
      ∃ value, result = some value ∧ returned value session := by
  cases result with
  | none => simp [Ends, ofOption, StateT.run]
  | some value => simp [Ends, ofOption, StateT.run]

end Operations

end Handlers
end Foundation
