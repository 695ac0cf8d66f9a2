import Mathlib.Tactic.Common
import Mathlib.Data.BitVec

/-!
# Sockets and their epoll interest

The part of `skutils.c` and `proxy.h` which the forwarder sees of a connected
socket: which events it is interested in, and what the calls on it return.

The kernel is a source of answers.  A `recv` answer carries the bytes which
the kernel hands over, of which at most the requested number is taken; the
empty answer is the end of the stream.  A `send` answer accepts at least one
of the offered bytes when any was offered.

The three kinds of proxy connection differ, once they are created, in their
handshake alone.  `Proxy` keeps the phase which the operations test; a direct
connection is forwarding from the start.
-/

namespace Nsproxy.Skutils

/-! ## Event masks -/

/-- An epoll event mask, `unsigned int` in the source. -/
abbrev EventMask : Type := BitVec 32

def epollin : EventMask := 0x001#32
def epollout : EventMask := 0x004#32
def epollerr : EventMask := 0x008#32
def epollhup : EventMask := 0x010#32

/-- The test `events & bits`. -/
def EventMask.meets (events bits : EventMask) : Bool :=
  decide (events &&& bits ≠ 0#32)

/-- The modes of `skutils_evctl`. -/
inductive EvMode where
  | clr
  | set
  | upd
deriving DecidableEq, Repr

/-- The interest which `skutils_evctl` asks for. -/
def newEvents (old mask : EventMask) : EvMode → EventMask
  | .clr => old &&& ~~~mask
  | .set => old ||| mask
  | .upd => mask

/-- The operations of `epoll_ctl`. -/
inductive EpollOp where
  | add
  | mod
  | del
deriving DecidableEq, Repr

/-- The operation which takes the old interest to the new one. -/
def epollOp (old new : EventMask) : EpollOp :=
  if old = 0#32 then .add else if new = 0#32 then .del else .mod

/--
The request which `skutils_evctl` makes of the kernel, if the interest
changes at all.
-/
def evctlRequest (old mask : EventMask) (mode : EvMode) :
    Option (EpollOp × EventMask) :=
  if old = newEvents old mask mode then
    none
  else
    some (epollOp old (newEvents old mask mode), newEvents old mask mode)

/-- `skutils_evctl`: the cached interest after the kernel answered. -/
def skutilsEvctl
    (accepted : Bool) (old mask : EventMask) (mode : EvMode) :
    EventMask :=
  match evctlRequest old mask mode with
  | none => old
  | some (_, new) => if accepted then new else old

/-- With a kernel that accepts, the interest is the requested one. -/
theorem skutilsEvctl_accepted
    (old mask : EventMask) (mode : EvMode) :
    skutilsEvctl true old mask mode = newEvents old mask mode := by
  simp only [skutilsEvctl, evctlRequest]
  by_cases same : old = newEvents old mask mode
  · rw [if_pos same]
    exact same
  · rw [if_neg same]
    rfl

/-! ## Which bits a request keeps -/

theorem meets_set_self
    (old : EventMask) {bits : EventMask} (some_bit : bits ≠ 0#32) :
    (newEvents old bits .set).meets bits = true := by
  have kept : (old ||| bits) &&& bits = bits := by
    ext index bound
    simp only [BitVec.getElem_and, BitVec.getElem_or]
    cases bits[index] <;> simp
  simpa [EventMask.meets, newEvents, kept] using some_bit

theorem meets_set_other
    (old : EventMask) {mask bits : EventMask}
    (disjoint : mask &&& bits = 0#32) :
    (newEvents old mask .set).meets bits = old.meets bits := by
  have kept : (old ||| mask) &&& bits = old &&& bits := by
    ext index bound
    have apart := congrArg (fun events => events[index]) disjoint
    simp only [BitVec.getElem_and, BitVec.getElem_zero] at apart
    simp only [BitVec.getElem_and, BitVec.getElem_or]
    cases old[index] <;> simp [apart]
  simp only [EventMask.meets, newEvents, kept]

theorem meets_clr_other
    (old : EventMask) {mask bits : EventMask}
    (disjoint : mask &&& bits = 0#32) :
    (newEvents old mask .clr).meets bits = old.meets bits := by
  have kept : (old &&& ~~~mask) &&& bits = old &&& bits := by
    ext index bound
    have apart := congrArg (fun events => events[index]) disjoint
    simp only [BitVec.getElem_and, BitVec.getElem_zero] at apart
    simp only [BitVec.getElem_and, BitVec.getElem_not]
    cases masked : mask[index] <;> simp_all
  simp only [EventMask.meets, newEvents, kept]

/-! ## Answers of the kernel -/

/-- The error numbers which the forwarder tells apart. -/
inductive Errno where
  | eagain
  | econnaborted
  | einprogress
  | other (code : Nat)
deriving DecidableEq, Repr

/-- One answer of the kernel to `recv`. -/
inductive RecvAnswer where
  | data (bytes : List UInt8)
  | err (errno : Errno)
deriving DecidableEq, Repr

/-- One answer of the kernel to `send`: accept up to `more + 1` bytes. -/
inductive SendAnswer where
  | accept (more : Nat)
  | err (errno : Errno)
deriving DecidableEq, Repr

/-- The answer of the kernel to `shutdown`. -/
inductive ShutAnswer where
  | ok
  | err (errno : Errno)
deriving DecidableEq, Repr

/-! ## Proxy connections -/

/-- The phase of a proxy connection, as far as the operations test it. -/
inductive Phase where
  | failed
  | handshake
  | forwarding
deriving DecidableEq, Repr

/-- What the forwarder's calls depend on in a `struct proxy`. -/
structure Proxy where
  phase : Phase
  events : EventMask
deriving DecidableEq, Repr

namespace Proxy

/-- The `recv` operation: a handshake is no stream yet. -/
def recv (proxy : Proxy) (answer : RecvAnswer) (size : Nat) :
    RecvAnswer :=
  match proxy.phase with
  | .failed => .err .econnaborted
  | .handshake => .err .einprogress
  | .forwarding =>
      match answer with
      | .data bytes => .data (bytes.take size)
      | .err errno => .err errno

/-- The result of the `send` operation: a count or an error. -/
def send (proxy : Proxy) (answer : SendAnswer) (size : Nat) :
    Except Errno Nat :=
  match proxy.phase with
  | .failed => .error .econnaborted
  | .handshake => .error .einprogress
  | .forwarding =>
      match answer with
      | .accept more => .ok (min (more + 1) size)
      | .err errno => .error errno

/--
The result of the `shutdown` operation.  A reset only closes the descriptor
and cannot fail.
-/
def shutdown (proxy : Proxy) (answer : ShutAnswer) (rst : Bool) :
    ShutAnswer :=
  match proxy.phase with
  | .forwarding => if rst then .ok else answer
  | _ => .err .eagain

/-- The `evctl` operation: before forwarding it changes nothing. -/
def evctl
    (proxy : Proxy) (accepted : Bool) (mask : EventMask) (mode : EvMode) :
    Proxy :=
  match proxy.phase with
  | .forwarding =>
      { proxy with
        events := skutilsEvctl accepted proxy.events mask mode }
  | _ => proxy

@[simp]
theorem evctl_phase
    (proxy : Proxy) (accepted : Bool) (mask : EventMask) (mode : EvMode) :
    (proxy.evctl accepted mask mode).phase = proxy.phase := by
  unfold evctl
  split
  · rfl
  · rfl

theorem evctl_events
    {proxy : Proxy} (forwarding : proxy.phase = .forwarding)
    (mask : EventMask) (mode : EvMode) :
    (proxy.evctl true mask mode).events =
      newEvents proxy.events mask mode := by
  simp [evctl, forwarding, skutilsEvctl_accepted]

theorem recv_eagain
    {proxy : Proxy} {answer : RecvAnswer} {size : Nat}
    (again : proxy.recv answer size = .err .eagain) :
    proxy.phase = .forwarding := by
  unfold recv at again
  split at again
  · cases again
  · cases again
  · next forwarding => exact forwarding

/-- An error of the kernel never becomes data. -/
theorem recv_err (proxy : Proxy) (errno : Errno) (size : Nat) :
    ∃ seen, proxy.recv (.err errno) size = .err seen := by
  unfold recv
  split
  · exact ⟨_, rfl⟩
  · exact ⟨_, rfl⟩
  · exact ⟨_, rfl⟩

theorem recv_data
    {proxy : Proxy} {answer : RecvAnswer} {size : Nat}
    {bytes : List UInt8}
    (read : proxy.recv answer size = .data bytes) :
    proxy.phase = .forwarding ∧ bytes.length ≤ size := by
  unfold recv at read
  split at read
  · cases read
  · cases read
  · next forwarding =>
      split at read
      · cases read
        refine ⟨forwarding, ?_⟩
        rw [List.length_take]
        exact Nat.min_le_left _ _
      · cases read

theorem send_eagain
    {proxy : Proxy} {answer : SendAnswer} {size : Nat}
    (again : proxy.send answer size = .error .eagain) :
    proxy.phase = .forwarding := by
  unfold send at again
  split at again
  · cases again
  · cases again
  · next forwarding => exact forwarding

/-- An error of the kernel is no acceptance. -/
theorem send_err (proxy : Proxy) (errno : Errno) (size : Nat) :
    ∃ seen, proxy.send (.err errno) size = .error seen := by
  unfold send
  split
  · exact ⟨_, rfl⟩
  · exact ⟨_, rfl⟩
  · exact ⟨_, rfl⟩

/-- A forwarding proxy accepts a nonempty prefix of what is offered. -/
theorem send_ok
    {proxy : Proxy} {answer : SendAnswer} {size nsent : Nat}
    (sent : proxy.send answer size = .ok nsent) :
    proxy.phase = .forwarding ∧ nsent ≤ size ∧
      (0 < size → 0 < nsent) := by
  unfold send at sent
  split at sent
  · cases sent
  · cases sent
  · next forwarding =>
      split at sent
      · next more =>
          cases sent
          refine ⟨forwarding, Nat.min_le_right _ _, ?_⟩
          intro positive
          exact Nat.lt_min.mpr ⟨Nat.succ_pos more, positive⟩
      · cases sent

theorem shutdown_ok
    {proxy : Proxy} {answer : ShutAnswer} {rst : Bool}
    (done : proxy.shutdown answer rst = .ok) :
    proxy.phase = .forwarding := by
  unfold shutdown at done
  split at done
  · next forwarding => exact forwarding
  · cases done

end Proxy

end Nsproxy.Skutils
