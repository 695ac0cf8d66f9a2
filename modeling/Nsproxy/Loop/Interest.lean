import Nsproxy.Skutils

/-!
# The interest which the kernel knows of

`skutils_evctl` never asks the kernel what a descriptor is registered for.
It keeps a copy of the mask, chooses the operation of `epoll_ctl` from the
copy, and changes the copy after the kernel accepted.

Here the copy and the kernel's own record stand side by side.  The kernel
checks every operation as `epoll_ctl` documents it: an addition of a known
descriptor and a change or removal of an unknown one are errors, and any
operation may be refused for a reason of the kernel's own.  The record holds
the mask as it was given; `EPOLLERR` and `EPOLLHUP` are reported without
being part of it.
-/

namespace Nsproxy.Loop.Interest

open Nsproxy.Skutils

/-! ## The kernel's record -/

/-- The mask a descriptor is registered with, if it is registered. -/
abbrev Registered : Type := Option EventMask

def eexist : Errno := .other 17
def enoent : Errno := .other 2

/--
`loop_epoll_ctl`: what the kernel does with one operation, unless it refuses
for a reason of its own.
-/
def loopEpollCtl
    (registered : Registered) (refused : Option Errno)
    (op : EpollOp) (events : EventMask) :
    Except Errno Registered :=
  match refused with
  | some errno => .error errno
  | none =>
      match op, registered with
      | .add, none => .ok (some events)
      | .add, some _ => .error eexist
      | .mod, none => .error enoent
      | .mod, some _ => .ok (some events)
      | .del, none => .error enoent
      | .del, some _ => .ok none

/-- The operations which the kernel's record admits. -/
def Legal (registered : Registered) (op : EpollOp) (events : EventMask) :
    Prop :=
  match op with
  | .add => registered = none
  | .mod => registered ≠ none ∧ events ≠ 0#32
  | .del => registered ≠ none

/-- The record which an operation leaves behind. -/
def EpollOp.outcome (op : EpollOp) (events : EventMask) : Registered :=
  match op with
  | .add => some events
  | .mod => some events
  | .del => none

/-- A legal operation which is not refused does what it says. -/
theorem loopEpollCtl_of_legal
    {registered : Registered} {op : EpollOp} {events : EventMask}
    (legal : Legal registered op events) :
    loopEpollCtl registered none op events =
      .ok (EpollOp.outcome op events) := by
  cases op with
  | add =>
      have unknown : registered = none := legal
      subst unknown
      rfl
  | mod =>
      rcases Option.ne_none_iff_exists'.mp legal.1 with ⟨mask, known⟩
      subst known
      rfl
  | del =>
      rcases Option.ne_none_iff_exists'.mp legal with ⟨mask, known⟩
      subst known
      rfl

/-! ## A descriptor and its copy of the mask -/

/-- The copy of the mask, and the record which it should agree with. -/
structure Descriptor where
  events : EventMask
  registered : Registered
deriving DecidableEq, Repr

/-- A descriptor which the loop has not seen yet. -/
def unregistered : Descriptor :=
  { events := 0#32, registered := none }

/-- One call of `skutils_evctl`, and the kernel's refusal if it refuses. -/
structure Call where
  mask : EventMask
  mode : EvMode
  refused : Option Errno
deriving DecidableEq, Repr

/-- `skutils_evctl`: the error it returns, and the descriptor afterwards. -/
def Descriptor.evctl (descriptor : Descriptor) (call : Call) :
    Option Errno × Descriptor :=
  match evctlRequest descriptor.events call.mask call.mode with
  | none => (none, descriptor)
  | some (op, new) =>
      match loopEpollCtl descriptor.registered call.refused op new with
      | .error errno => (some errno, descriptor)
      | .ok registered =>
          (none, { events := new, registered := registered })

/-- The descriptor after a sequence of calls. -/
def Descriptor.run (descriptor : Descriptor) (calls : List Call) :
    Descriptor :=
  calls.foldl (fun current call => (current.evctl call).2) descriptor

/-! ## The copy agrees with the record -/

/-- The copy is the registered mask, where zero stands for no record. -/
def Descriptor.Tracked (descriptor : Descriptor) : Prop :=
  descriptor.registered =
    if descriptor.events = 0#32 then none else some descriptor.events

theorem Descriptor.Tracked.none_iff
    {descriptor : Descriptor} (tracked : descriptor.Tracked) :
    descriptor.registered = none ↔ descriptor.events = 0#32 := by
  rw [tracked]
  by_cases empty : descriptor.events = 0#32
  · simp [empty]
  · simp [empty]

/-- The operation is chosen from the copy, and the record admits it. -/
theorem Descriptor.Tracked.legal
    {descriptor : Descriptor} (tracked : descriptor.Tracked)
    {mask : EventMask} {mode : EvMode}
    {op : EpollOp} {new : EventMask}
    (requested : evctlRequest descriptor.events mask mode = some (op, new)) :
    Legal descriptor.registered op new ∧
      EpollOp.outcome op new = if new = 0#32 then none else some new := by
  unfold evctlRequest at requested
  split at requested
  · cases requested
  · next changed =>
      cases requested
      by_cases empty : descriptor.events = 0#32
      · have kept : newEvents descriptor.events mask mode ≠ 0#32 := by
          intro cleared
          exact changed (empty.trans cleared.symm)
        have op : epollOp descriptor.events
            (newEvents descriptor.events mask mode) = .add := by
          simp [epollOp, empty]
        rw [op]
        constructor
        · exact tracked.none_iff.mpr empty
        · simp [EpollOp.outcome, kept]
      · have known : descriptor.registered ≠ none := by
          intro unknown
          exact empty (tracked.none_iff.mp unknown)
        by_cases cleared : newEvents descriptor.events mask mode = 0#32
        · have op : epollOp descriptor.events
              (newEvents descriptor.events mask mode) = .del := by
            simp [epollOp, empty, cleared]
          rw [op]
          constructor
          · exact known
          · simp [EpollOp.outcome, cleared]
        · have op : epollOp descriptor.events
              (newEvents descriptor.events mask mode) = .mod := by
            simp [epollOp, empty, cleared]
          rw [op]
          constructor
          · exact ⟨known, cleared⟩
          · simp [EpollOp.outcome, cleared]

/--
Every call is answered as the model of the forwarder's connections assumes:
the copy changes unless the kernel refuses.
-/
theorem Descriptor.Tracked.evctl_events
    {descriptor : Descriptor} (tracked : descriptor.Tracked)
    (call : Call) :
    (descriptor.evctl call).2.events =
      skutilsEvctl call.refused.isNone descriptor.events
        call.mask call.mode := by
  unfold Descriptor.evctl skutilsEvctl
  cases requested : evctlRequest descriptor.events call.mask call.mode with
  | none => rfl
  | some request =>
      rcases request with ⟨op, new⟩
      cases refused : call.refused with
      | some errno => simp [loopEpollCtl]
      | none =>
          have legal := (tracked.legal requested).1
          simp [loopEpollCtl_of_legal legal]

/-- One call keeps the copy in agreement, whatever the kernel answers. -/
theorem Descriptor.Tracked.evctl
    {descriptor : Descriptor} (tracked : descriptor.Tracked)
    (call : Call) :
    (descriptor.evctl call).2.Tracked := by
  unfold Descriptor.evctl
  cases requested : evctlRequest descriptor.events call.mask call.mode with
  | none => exact tracked
  | some request =>
      rcases request with ⟨op, new⟩
      cases refused : call.refused with
      | some errno => exact tracked
      | none =>
          rcases tracked.legal requested with ⟨legal, outcome⟩
          simp only [loopEpollCtl_of_legal legal]
          exact outcome

/-- A sequence of calls keeps the copy in agreement. -/
theorem Descriptor.Tracked.run
    {descriptor : Descriptor} (tracked : descriptor.Tracked)
    (calls : List Call) :
    (descriptor.run calls).Tracked := by
  induction calls generalizing descriptor with
  | nil => exact tracked
  | cons call rest induction => exact induction (tracked.evctl call)

theorem tracked_unregistered : unregistered.Tracked := rfl

/--
After every sequence of calls the copy is the registered mask, zero where the
descriptor is not registered; every operation which the next call issues is
legal; a registered descriptor has at least one interest bit.
-/
theorem evctl_tracks_registration (calls : List Call) :
    ((unregistered.run calls).registered =
      if (unregistered.run calls).events = 0#32 then none
      else some (unregistered.run calls).events) ∧
    (∀ (call : Call) (op : EpollOp) (new : EventMask),
      evctlRequest (unregistered.run calls).events call.mask call.mode =
        some (op, new) →
      Legal (unregistered.run calls).registered op new) ∧
    (∀ mask : EventMask,
      (unregistered.run calls).registered = some mask → mask ≠ 0#32) := by
  have tracked := tracked_unregistered.run calls
  refine ⟨tracked, ?_, ?_⟩
  · intro call op new requested
    exact (tracked.legal requested).1
  · intro mask known cleared
    have empty : (unregistered.run calls).events = 0#32 := by
      by_contra present
      rw [tracked, if_neg present] at known
      exact present ((Option.some.inj known).trans cleared)
    rw [tracked.none_iff.mpr empty] at known
    cases known

end Nsproxy.Loop.Interest
