import Mathlib.Tactic.Common

/-!
# Event-driven transition systems

A system has initial states, an environment that decides which events may
occur in a state, and a step function that handles one event or faults.  A
state is reachable when enabled events lead to it without a fault.

The module provides the rule that carries an invariant along every run, the
rule that takes the runs of one system to runs of another, the restriction of
a system to the runs whose steps all meet a condition, a replay function which
turns a concrete list of events into a reachability proof, the rule that a
goal which a falling measure leads to cannot be avoided, the rule that a run
has no more useful events than a measure allows, and the rule that a goal is
avoided where the environment can keep a run away from it.
-/

namespace Nsproxy.Lib.Transition

/-- A guarded, possibly faulting, event-driven system. -/
structure System (Fault State Event : Type) where
  initial : State → Prop
  enabled : State → Event → Prop
  step : State → Event → Except Fault State

namespace System

variable {Fault State Event : Type}

/-- The states which enabled events reach without a fault. -/
inductive Reachable (system : System Fault State Event) : State → Prop where
  | start
      (first : system.initial source) :
      Reachable system source
  | next
      (before : Reachable system source)
      (permitted : system.enabled source event)
      (handled : system.step source event = .ok target) :
      Reachable system target

/--
An invariant which holds initially and is preserved by every enabled event
holds in every reachable state.
-/
theorem Reachable.invariant
    {system : System Fault State Event}
    {invariant : State → Prop}
    (base : ∀ source, system.initial source → invariant source)
    (preserved :
      ∀ source event target,
        invariant source →
        system.enabled source event →
        system.step source event = .ok target →
        invariant target)
    {target : State}
    (reachable : system.Reachable target) :
    invariant target := by
  induction reachable with
  | start first =>
      exact base _ first
  | next before permitted handled induction =>
      exact preserved _ _ _ induction permitted handled

/-- A view which takes every run to a run of another system. -/
theorem Reachable.view
    {Image : Type}
    {system : System Fault State Event}
    {other : System Fault Image Event}
    (view : State → Image)
    (base :
      ∀ source, system.initial source → other.Reachable (view source))
    (steps :
      ∀ source event target,
        system.enabled source event →
        system.step source event = .ok target →
        other.enabled (view source) event ∧
          other.step (view source) event = .ok (view target))
    {target : State}
    (reachable : system.Reachable target) :
    other.Reachable (view target) := by
  apply reachable.invariant
  · exact base
  · intro source event target before permitted handled
    rcases steps source event target permitted handled with
      ⟨enabled, stepped⟩
    exact .next before enabled stepped

/--
The runs of `system` which begin in a state that meets `starts` and whose
steps all meet `condition`.
-/
def restrict
    (system : System Fault State Event)
    (starts : State → Prop)
    (condition : State → Event → Prop) :
    System Fault State Event where
  initial source := system.initial source ∧ starts source
  enabled source event :=
    system.enabled source event ∧ condition source event
  step := system.step

/-- Restricting the environment removes runs and adds none. -/
theorem Reachable.of_restrict
    {system : System Fault State Event}
    {starts : State → Prop}
    {condition : State → Event → Prop}
    {target : State}
    (reachable : (system.restrict starts condition).Reachable target) :
    system.Reachable target := by
  apply reachable.view id
  · rintro source ⟨first, _⟩
    exact .start first
  · intro source event target permitted handled
    exact ⟨permitted.1, handled⟩

/-- Handle a list of events, giving up at a disabled or faulting one. -/
def replay
    (system : System Fault State Event)
    [∀ source event, Decidable (system.enabled source event)] :
    State → List Event → Option State
  | source, [] => some source
  | source, event :: rest =>
      if system.enabled source event then
        match system.step source event with
        | .ok target => replay system target rest
        | .error _ => none
      else
        none

/-- Replay only visits reachable states. -/
theorem Reachable.replay
    {system : System Fault State Event}
    [∀ source event, Decidable (system.enabled source event)]
    {source target : State}
    (reachable : system.Reachable source)
    {events : List Event}
    (replayed : system.replay source events = some target) :
    system.Reachable target := by
  induction events generalizing source with
  | nil =>
      simp only [System.replay, Option.some.injEq] at replayed
      exact replayed ▸ reachable
  | cons event rest induction =>
      simp only [System.replay] at replayed
      split at replayed
      · next permitted =>
          split at replayed
          · next middle handled =>
              exact induction
                (.next reachable permitted handled) replayed
          · cases replayed
      · cases replayed

/-- A replay whose last state passes a test. -/
theorem Reachable.exists_replay
    {system : System Fault State Event}
    [∀ source event, Decidable (system.enabled source event)]
    {source : State} (reachable : system.Reachable source)
    {events : List Event} {test : State → Bool}
    (passes : (system.replay source events).map test = some true) :
    ∃ target, system.Reachable target ∧ test target = true := by
  rcases Option.map_eq_some_iff.mp passes with ⟨target, run, tested⟩
  exact ⟨target, reachable.replay run, tested⟩

/--
Every run from here comes to a state which meets the goal: it is met already,
or there is a next event and after each next event the same holds.
-/
inductive Inevitable
    (system : System Fault State Event) (goal : State → Prop) :
    State → Prop where
  | here
      (met : goal source) :
      Inevitable system goal source
  | later
      (progress :
        ∃ event target,
          system.enabled source event ∧
            system.step source event = .ok target)
      (onward :
        ∀ event target,
          system.enabled source event →
          system.step source event = .ok target →
          Inevitable system goal target) :
      Inevitable system goal source

/--
Where no state short of the goal is stuck and every event lowers a measure,
the goal is inevitable.
-/
theorem Inevitable.of_measure
    {system : System Fault State Event} {goal : State → Prop}
    (invariant : State → Prop) (measure : State → Nat)
    (progress :
      ∀ source, invariant source → ¬ goal source →
        ∃ event target,
          system.enabled source event ∧
            system.step source event = .ok target)
    (falls :
      ∀ source event target,
        invariant source → ¬ goal source →
        system.enabled source event →
        system.step source event = .ok target →
        invariant target ∧ measure target < measure source)
    {source : State} (start : invariant source) :
    system.Inevitable goal source := by
  induction bound : measure source using Nat.strongRecOn
    generalizing source with
  | ind count induction =>
      by_cases met : goal source
      · exact .here met
      · apply Inevitable.later (progress source start met)
        intro event target permitted handled
        rcases falls source event target start met permitted handled with
          ⟨kept, lower⟩
        exact induction (measure target) (bound ▸ lower) kept rfl

/-- A run from `source` in which at least so many events were useful. -/
inductive Counted
    (system : System Fault State Event) (useful : State → Event → Prop)
    (source : State) : Nat → State → Prop where
  | start :
      Counted system useful source 0 source
  | next
      (before : Counted system useful source count middle)
      (permitted : system.enabled middle event)
      (handled : system.step middle event = .ok target) :
      Counted system useful source count target
  | useful
      (before : Counted system useful source count middle)
      (permitted : system.enabled middle event)
      (handled : system.step middle event = .ok target)
      (helps : useful middle event) :
      Counted system useful source (count + 1) target

/--
Where no event raises a measure and the useful ones lower it, a run has no
more useful events than the measure was worth.
-/
theorem Counted.bounded
    {system : System Fault State Event} {useful : State → Event → Prop}
    (invariant : State → Prop) (measure : State → Nat)
    (kept :
      ∀ source event target,
        invariant source →
        system.enabled source event →
        system.step source event = .ok target →
        invariant target ∧ measure target ≤ measure source ∧
          (useful source event → measure target < measure source))
    {source target : State} {count : Nat} (start : invariant source)
    (run : system.Counted useful source count target) :
    invariant target ∧ count + measure target ≤ measure source := by
  induction run with
  | start => exact ⟨start, Nat.le_of_eq (Nat.zero_add _)⟩
  | next before permitted handled induction =>
      have later := kept _ _ _ induction.1 permitted handled
      exact ⟨later.1, by omega⟩
  | useful before permitted handled helps induction =>
      have later := kept _ _ _ induction.1 permitted handled
      have lower := later.2.2 helps
      exact ⟨later.1, by omega⟩

/--
Where some event always leads from states apart from the goal to such states
again, the goal is not inevitable.
-/
theorem not_inevitable_of_escape
    {system : System Fault State Event} {goal : State → Prop}
    (away : State → Prop)
    (apart : ∀ source, away source → ¬ goal source)
    (escape :
      ∀ source, away source →
        ∃ event target,
          system.enabled source event ∧
            system.step source event = .ok target ∧
            away target)
    {source : State} (start : away source) :
    ¬ system.Inevitable goal source := by
  intro inevitable
  induction inevitable with
  | here met =>
      exact apart _ start met
  | later progress onward induction =>
      rcases escape _ start with
        ⟨event, target, permitted, handled, again⟩
      exact induction event target permitted handled again

end System

end Nsproxy.Lib.Transition
