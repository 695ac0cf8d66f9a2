import Mathlib.Tactic.Common

/-!
# Handlers over a shared state that may fault

A callback of an event-driven C program runs over a shared state.  It returns
a value and the state it leaves behind, or it faults: it touched memory that
was already released, or an assertion of the program failed.

`Handler` is the corresponding monad.  The equations below evaluate a handler
at a given state, and are the only facts about the monad that the proofs over
it use.
-/

namespace Nsproxy.Lib.Handlers

/-- A routine over `State` that either faults or returns a result. -/
abbrev Handler (Fault State Result : Type) : Type :=
  StateT State (Except Fault) Result

variable {Fault State Result Next : Type}

@[simp]
theorem bind_apply
    (first : Handler Fault State Result)
    (next : Result → Handler Fault State Next)
    (state : State) :
    (first >>= next) state =
      (first state).bind fun answer => next answer.1 answer.2 :=
  rfl

@[simp]
theorem pure_apply (result : Result) (state : State) :
    (pure result : Handler Fault State Result) state =
      .ok (result, state) :=
  rfl

@[simp]
theorem map_apply
    (change : Result → Next)
    (first : Handler Fault State Result)
    (state : State) :
    (change <$> first) state =
      (first state).bind fun answer =>
        .ok (change answer.1, answer.2) :=
  rfl

@[simp]
theorem get_apply (state : State) :
    (get : Handler Fault State State) state = .ok (state, state) :=
  rfl

@[simp]
theorem set_apply (next state : State) :
    (set next : Handler Fault State PUnit) state =
      .ok (PUnit.unit, next) :=
  rfl

@[simp]
theorem modify_apply (change : State → State) (state : State) :
    (modify change : Handler Fault State PUnit) state =
      .ok (PUnit.unit, change state) :=
  rfl

@[simp]
theorem throw_apply (fault : Fault) (state : State) :
    (throw fault : Handler Fault State Result) state =
      .error fault :=
  rfl

@[simp]
theorem ok_bind (answer : Result) (next : Result → Except Fault Next) :
    (Except.ok answer).bind next = next answer :=
  rfl

@[simp]
theorem error_bind (fault : Fault) (next : Result → Except Fault Next) :
    (Except.error fault).bind next = .error fault :=
  rfl

@[simp]
theorem ite_handler_apply
    (condition : Prop) [Decidable condition]
    (first second : Handler Fault State Result)
    (state : State) :
    (if condition then first else second) state =
      if condition then first state else second state := by
  split <;> rfl

end Nsproxy.Lib.Handlers
