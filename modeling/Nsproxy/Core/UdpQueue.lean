import Mathlib.Tactic.Common
import Nsproxy.Lib.ArrayQueue
import Nsproxy.Lib.Handlers
import Nsproxy.Lwip.Copies
import Nsproxy.Core.UdpFlows

/-!
# The receive queue of a UDP forward

Datagrams from the application wait in an array of eight pointers until the
forward has a proxy object; then they are sent and freed.  The functions are
those of `core.c`, with the array, the count of its entries, the three ways in
which the bytes of a chain are handed to `proxy_send`, and the buffers they
use.

A datagram has a number of its own, which stands for the pointer to its first
pbuf.  Reading a slot which holds no datagram, reading or freeing a datagram
twice, and an access outside of a buffer are faults.  What `proxy_send`
answers is left open.

`attempt` is the loop over a list of datagrams.  The functions are proved to
do to the array what it does to the list; what they do to whole runs is proved
from that.
-/

namespace Nsproxy.Core.UdpQueue

open Nsproxy.Lib.ArrayQueue
open Nsproxy.Lib.Buffer
open Nsproxy.Lib.Handlers
open Nsproxy.Lwip.Buffers
open Nsproxy.Lwip.Copies
open Nsproxy.Skutils
open Nsproxy.Core.UdpFlows

/-! ## State -/

/-- A received datagram, with at most 65535 bytes in at least one pbuf. -/
structure Datagram where
  number : Nat
  chain : PbufChain
  present : chain.pbufs ≠ []
  short : chain.bytes.length < 65536
deriving DecidableEq

namespace Datagram

/-- The pbuf which the queue points to. -/
def first (p : Datagram) : Pbuf := p.chain.pbufs.head p.present

/-- `tot_len` of the first pbuf counts all bytes of the datagram. -/
theorem first_totLen (p : Datagram) :
    p.first.totLen = p.chain.bytes.length := by
  cases p with
  | mk number chain present short =>
      cases chain with
      | mk pbufs sound =>
          cases pbufs with
          | nil =>
              exact absurd rfl present
          | cons pbuf rest =>
              exact sound.1.trans (Nat.mod_eq_of_lt short)

/-- Where the first pbuf has all bytes, its payload is the datagram. -/
theorem first_payload
    {p : Datagram} (single : p.first.len = p.first.totLen) :
    p.first.payload = p.chain.bytes := by
  rw [first_totLen] at single
  cases p with
  | mk number chain present short =>
      cases chain with
      | mk pbufs sound =>
          cases pbufs with
          | nil =>
              exact absurd rfl present
          | cons pbuf rest =>
              simp only [first, List.head_cons, Pbuf.len,
                PbufChain.bytes, payloads_cons, List.length_append]
                at single ⊢
              have rest_empty : payloads rest = [] :=
                List.length_eq_zero_iff.mp (by omega)
              rw [rest_empty, List.append_nil]

/-- The datagram and its bytes. -/
def contents (p : Datagram) : Nat × List UInt8 :=
  (p.number, p.chain.bytes)

end Datagram

/-- What the functions do to a datagram, and to the forward. -/
inductive QueueAction where
  | proxySend (number : Nat) (bytes : List UInt8)
  | pbufFree (number : Nat)
  | proxyEvctl
  | udpRemove
  | proxyPut
deriving DecidableEq

inductive QueueFault where
  | nullPointer (index : Nat)
  | freed (number : Nat)
  | outside (access : Outside)
deriving DecidableEq

/-- `struct udp_forward`, without the list it is on. -/
structure UdpForward where
  proxy : Bool
  localPort : UInt16
  rcvq : Slots Datagram rcvqLen
  nrcvq : Nat
  gc : Nat
deriving DecidableEq

/-- What the functions share with their callers. -/
structure World (Kernel : Type) where
  kernel : Kernel
  trace : List QueueAction
deriving DecidableEq

/-- Append to the history. -/
def World.record
    {Kernel : Type} (world : World Kernel) (actions : List QueueAction) :
    World Kernel :=
  { world with trace := world.trace ++ actions }

abbrev Routine (Kernel : Type) : Type → Type :=
  Handler QueueFault (World Kernel)

/-- The size of the stack buffer of `udp_proxy_output`. -/
def stkbuffSize : Nat := 2048

/-- `UDP_PACKET_MAXLEN`, the size of its heap buffer. -/
def udpPacketMaxlen : Nat := 65535

/-- A result of `proxy_send` which destroys the forward. -/
def fatal : Except Errno Nat → Bool
  | .ok _ => false
  | .error errno => decide (errno ≠ .eagain)

section Functions

variable {Kernel : Type}
variable (proxySend : List UInt8 → Kernel → Except Errno Nat × Kernel)
variable (garbage : Nat → UInt8)

/-! ## Calls -/

/-- Fail on a datagram which was freed. -/
def checkAlive (p : Datagram) : Routine Kernel Unit := do
  let world ← get
  if .pbufFree p.number ∈ world.trace then
    throw (.freed p.number)
  else
    return ()

def record (actions : List QueueAction) : Routine Kernel Unit :=
  modify fun world => world.record actions

/-- `pbuf_free`, on the first pbuf of a chain with one reference. -/
def pbufFree (p : Datagram) : Routine Kernel Unit := do
  checkAlive p
  record [.pbufFree p.number]

/-- Read a slot of the receive queue. -/
def readSlot (fwd : UdpForward) (index : Nat) : Routine Kernel Datagram :=
  match fwd.rcvq.entries[index]? with
  | some (some p) => return p
  | _ => throw (.nullPointer index)

/-- An access to a buffer. -/
def access {Result : Type} (outcome : Except Outside Result) :
    Routine Kernel Result :=
  match outcome with
  | .ok result => return result
  | .error fault => throw (.outside fault)

/-- `proxy_send`, with the first bytes of a buffer. -/
def callProxySend (p : Datagram) (buffer : List UInt8) (size : Nat) :
    Routine Kernel (Except Errno Nat) := do
  let bytes ← access (load buffer 0 size)
  record [.proxySend p.number bytes]
  modifyGet fun world =>
    ((proxySend bytes world.kernel).1,
      { world with kernel := (proxySend bytes world.kernel).2 })

/-- Memory which was not written yet. -/
def uninitialised (size : Nat) : List UInt8 :=
  (List.range size).map garbage

/-! ## Output -/

/--
The first half of the loop body of `udp_proxy_output`: the result of
`proxy_send`, and `heapbuff`.
-/
def sendDatagram (p : Datagram) (heapbuff : Option (List UInt8)) :
    Routine Kernel (Except Errno Nat × Option (List UInt8)) := do
  checkAlive p
  if p.first.len = p.first.totLen then
    let nsent ← callProxySend proxySend p p.first.payload p.first.totLen
    return (nsent, heapbuff)
  else if p.first.totLen ≤ stkbuffSize then
    let (stkbuff, _) ←
      access
        (pbufCopyPartial p.chain.pbufs
          (uninitialised garbage stkbuffSize) p.first.totLen 0)
    let nsent ← callProxySend proxySend p stkbuff p.first.totLen
    return (nsent, heapbuff)
  else
    let (heapbuff, _) ←
      access
        (pbufCopyPartial p.chain.pbufs
          (heapbuff.getD (uninitialised garbage udpPacketMaxlen))
          p.first.totLen 0)
    let nsent ← callProxySend proxySend p heapbuff p.first.totLen
    return (nsent, some heapbuff)

/-- The first loop of `udp_proxy_output`; false after a fatal error. -/
def sendLoop (fwd : UdpForward) :
    Nat → Nat → Option (List UInt8) → Routine Kernel Bool
  | 0, _, _ => return true
  | remaining + 1, i, heapbuff => do
      let p ← readSlot fwd i
      let (nsent, heapbuff) ←
        sendDatagram proxySend garbage p heapbuff
      if fatal nsent then
        return false
      else
        sendLoop fwd remaining (i + 1) heapbuff

/-- The second loop of `udp_proxy_output`. -/
def freeLoop (fwd : UdpForward) : Nat → Nat → Routine Kernel Unit
  | 0, _ => return ()
  | remaining + 1, i => do
      let p ← readSlot fwd i
      pbufFree p
      freeLoop fwd remaining (i + 1)

/-- The loop of `udp_forward_destroy`, for the value of `nrcvq`. -/
def freeBackwards (fwd : UdpForward) : Nat → Routine Kernel Unit
  | 0 => return ()
  | nrcvq + 1 => do
      let p ← readSlot fwd nrcvq
      pbufFree p
      freeBackwards fwd nrcvq

/-- `udp_forward_destroy`. -/
def udpForwardDestroy (fwd : UdpForward) : Routine Kernel Unit := do
  freeBackwards fwd fwd.nrcvq
  record [.udpRemove]
  record (if fwd.proxy then [.proxyPut] else [])

/-- The idle timer starts again. -/
def refreshed (fwd : UdpForward) : UdpForward :=
  { fwd with gc := idleTimeout fwd.localPort }

/-- `udp_proxy_output`: what is left of the forward. -/
def udpProxyOutput (fwd : UdpForward) :
    Routine Kernel (Option UdpForward) := do
  let fwd := refreshed fwd
  if ← sendLoop proxySend garbage fwd fwd.nrcvq 0 none then
    freeLoop fwd fwd.nrcvq 0
    record [.proxyEvctl]
    return some { fwd with nrcvq := 0 }
  else
    udpForwardDestroy fwd
    return none

/-! ## Input -/

/-- Put a datagram on the receive queue; the oldest one makes room. -/
def enqueue (p : Datagram) (fwd : UdpForward) :
    Routine Kernel UdpForward := do
  if fwd.nrcvq = rcvqLen then
    let oldest ← readSlot fwd 0
    pbufFree oldest
    return { fwd with rcvq := fwd.rcvq.moveDown.assign (rcvqLen - 1) p }
  else
    return { fwd with
      rcvq := fwd.rcvq.assign fwd.nrcvq p
      nrcvq := fwd.nrcvq + 1 }

/-- `udp_lwip_received`; without a datagram it is given `NULL`. -/
def udpLwipReceived (p : Option Datagram) (fwd : UdpForward) :
    Routine Kernel (Option UdpForward) :=
  match p with
  | none => do
      udpForwardDestroy fwd
      return none
  | some p => do
      let fwd ← enqueue p fwd
      if fwd.proxy then udpProxyOutput proxySend garbage fwd
      else return some fwd

/--
The loop body of `udp_assoc_io_event` for a forward, when the association has
succeeded: whether a proxy object can be made is given.
-/
def settlePending (created : Bool) (fwd : UdpForward) :
    Routine Kernel (Option UdpForward) := do
  if fwd.proxy then
    return some fwd
  else if created then
    let fwd := { fwd with proxy := true }
    if 0 < fwd.nrcvq then udpProxyOutput proxySend garbage fwd
    else return some fwd
  else
    udpForwardDestroy fwd
    return none

end Functions

/-! ## What the calls do -/

/-- The datagram was not freed. -/
def Alive {Kernel : Type} (world : World Kernel) (p : Datagram) : Prop :=
  .pbufFree p.number ∉ world.trace

/-- How a datagram is sent. -/
def sending (p : Datagram) : QueueAction :=
  .proxySend p.number p.chain.bytes

/-- How a datagram is freed. -/
def freeing (p : Datagram) : QueueAction := .pbufFree p.number

/-- A heap buffer has its full size. -/
def HeapReady (heapbuff : Option (List UInt8)) : Prop :=
  ∀ buffer, heapbuff = some buffer → buffer.length = udpPacketMaxlen

section Calls

variable {Kernel : Type}
variable {proxySend : List UInt8 → Kernel → Except Errno Nat × Kernel}
variable {garbage : Nat → UInt8}
variable {world : World Kernel} {p : Datagram}

@[simp]
theorem record_apply (actions : List QueueAction) :
    record actions world = .ok ((), world.record actions) :=
  rfl

theorem checkAlive_apply (alive : Alive world p) :
    checkAlive p world = .ok ((), world) := by
  simp only [checkAlive, bind_apply, get_apply, ok_bind, ite_handler_apply,
    if_neg alive, pure_apply]

theorem pbufFree_apply (alive : Alive world p) :
    pbufFree p world = .ok ((), world.record [freeing p]) := by
  simp only [pbufFree, bind_apply, checkAlive_apply alive, ok_bind,
    record_apply]
  rfl

theorem readSlot_apply
    {fwd : UdpForward} {front rest : List Datagram}
    (holds : fwd.rcvq.Holds (front ++ p :: rest)) :
    readSlot fwd front.length world = .ok (p, world) := by
  simp only [readSlot, holds.getElem?, pure_apply]

/-- The world after a datagram was handed to `proxy_send`. -/
def afterSend
    (proxySend : List UInt8 → Kernel → Except Errno Nat × Kernel)
    (p : Datagram) (world : World Kernel) : World Kernel where
  kernel := (proxySend p.chain.bytes world.kernel).2
  trace := world.trace ++ [sending p]

theorem callProxySend_apply
    {buffer : List UInt8} {size : Nat}
    (loaded : load buffer 0 size = .ok p.chain.bytes) :
    callProxySend proxySend p buffer size world =
      .ok
        ((proxySend p.chain.bytes world.kernel).1,
          afterSend proxySend p world) := by
  simp only [callProxySend, loaded]
  rfl

theorem length_uninitialised (size : Nat) :
    (uninitialised garbage size).length = size := by
  simp [uninitialised]

/-- A copy of a datagram, and what is read from it. -/
theorem copied_datagram
    {buffer : List UInt8}
    (room : p.chain.bytes.length ≤ buffer.length) :
    ∃ next,
      pbufCopyPartial p.chain.pbufs buffer p.first.totLen 0 =
        .ok (next, p.chain.bytes.length) ∧
        next.length = buffer.length ∧
        load next 0 p.first.totLen = .ok p.chain.bytes := by
  refine ⟨written p.chain.bytes buffer, ?_, length_written room, ?_⟩
  · rw [p.first_totLen]
    exact pbufCopyPartial_whole room
  · have front : ([] : List UInt8).length = 0 := rfl
    exact load_append front p.first_totLen.symm

/-- Whichever way is taken, `proxy_send` is given the bytes of the chain. -/
theorem sendDatagram_apply
    (alive : Alive world p) {heapbuff : Option (List UInt8)}
    (ready : HeapReady heapbuff) :
    ∃ next,
      HeapReady next ∧
        sendDatagram proxySend garbage p heapbuff world =
          .ok
            (((proxySend p.chain.bytes world.kernel).1, next),
              afterSend proxySend p world) := by
  by_cases single : p.first.len = p.first.totLen
  · refine ⟨heapbuff, ready, ?_⟩
    have loaded :
        load p.first.payload 0 p.first.totLen = .ok p.chain.bytes := by
      rw [load_eq (by rw [← single]; simp [Pbuf.len]), List.drop_zero,
        ← single, Pbuf.len, List.take_length,
        Datagram.first_payload single]
    simp only [sendDatagram, bind_apply, checkAlive_apply alive, ok_bind,
      if_pos single, callProxySend_apply loaded, pure_apply]
  · by_cases small : p.first.totLen ≤ stkbuffSize
    · have room :
          p.chain.bytes.length ≤
            (uninitialised garbage stkbuffSize).length := by
        rw [length_uninitialised, ← p.first_totLen]
        exact small
      rcases copied_datagram room with ⟨stkbuff, copied, _, loaded⟩
      refine ⟨heapbuff, ready, ?_⟩
      simp only [sendDatagram, bind_apply, checkAlive_apply alive,
        ok_bind, if_neg single, if_pos small, copied, access, pure_apply,
        callProxySend_apply loaded]
    · have sized :
          (heapbuff.getD (uninitialised garbage udpPacketMaxlen)).length =
            udpPacketMaxlen := by
        cases heapbuff with
        | none =>
            rw [Option.getD_none, length_uninitialised]
        | some buffer =>
            rw [Option.getD_some, ready buffer rfl]
      have room :
          p.chain.bytes.length ≤
            (heapbuff.getD
              (uninitialised garbage udpPacketMaxlen)).length := by
        have bound := p.short
        rw [sized, udpPacketMaxlen]
        omega
      rcases copied_datagram room with ⟨next, copied, size, loaded⟩
      refine ⟨some next, ?_, ?_⟩
      · intro buffer equal
        cases equal
        exact size.trans sized
      · simp only [sendDatagram, bind_apply, checkAlive_apply alive,
          ok_bind, if_neg single, if_neg small, copied, access,
          pure_apply, callProxySend_apply loaded]

end Calls

/-! ## What the loops do -/

section Loops

variable {Kernel : Type}
variable {proxySend : List UInt8 → Kernel → Except Errno Nat × Kernel}
variable {garbage : Nat → UInt8}

/-- Send datagrams until a fatal error. -/
def attempt
    (proxySend : List UInt8 → Kernel → Except Errno Nat × Kernel) :
    List Datagram → World Kernel → Bool × World Kernel
  | [], world => (true, world)
  | p :: rest, world =>
      if fatal (proxySend p.chain.bytes world.kernel).1 then
        (false, afterSend proxySend p world)
      else
        attempt proxySend rest (afterSend proxySend p world)

/-- A forward whose queue consists of these datagrams. -/
structure Queued (fwd : UdpForward) (items : List Datagram) : Prop where
  holds : fwd.rcvq.Holds items
  count : fwd.nrcvq = items.length

/-- Different datagrams, none of which was freed. -/
structure Fresh (world : World Kernel) (items : List Datagram) :
    Prop where
  alive : ∀ p ∈ items, Alive world p
  apart : (items.map Datagram.number).Nodup

theorem alive_afterSend
    {world : World Kernel} {p other : Datagram}
    (alive : Alive world other) :
    Alive (afterSend proxySend p world) other := by
  intro freed
  rcases List.mem_append.mp freed with before | now
  · exact alive before
  · cases List.mem_singleton.mp now

theorem alive_attempt
    (items : List Datagram) {world : World Kernel} {p : Datagram}
    (alive : Alive world p) :
    Alive (attempt proxySend items world).2 p := by
  induction items generalizing world with
  | nil =>
      exact alive
  | cons item rest induction =>
      simp only [attempt]
      split
      · exact alive_afterSend alive
      · exact induction (alive_afterSend alive)

/-- Freeing one datagram leaves the others alone. -/
theorem alive_freeing
    {world : World Kernel} {p other : Datagram}
    (alive : Alive world other) (differ : other.number ≠ p.number) :
    Alive (world.record [freeing p]) other := by
  intro freed
  rcases List.mem_append.mp freed with before | now
  · exact alive before
  · have same := List.mem_singleton.mp now
    simp only [freeing, QueueAction.pbufFree.injEq] at same
    exact differ same

theorem Fresh.attempt
    {world : World Kernel} {items : List Datagram}
    (fresh : Fresh world items) (others : List Datagram) :
    Fresh (attempt proxySend others world).2 items where
  alive p member := alive_attempt others (fresh.alive p member)
  apart := fresh.apart

theorem Fresh.free_head
    {world : World Kernel} {p : Datagram} {rest : List Datagram}
    (fresh : Fresh world (p :: rest)) :
    Fresh (world.record [freeing p]) rest where
  alive other member := by
    apply alive_freeing (fresh.alive other (List.mem_cons_of_mem p member))
    intro same
    apply (List.nodup_cons.mp fresh.apart).1
    rw [← same]
    exact List.mem_map_of_mem member
  apart := (List.nodup_cons.mp fresh.apart).2

theorem Fresh.free_last
    {world : World Kernel} {p : Datagram} {front : List Datagram}
    (fresh : Fresh world (front ++ [p])) :
    Fresh (world.record [freeing p]) front := by
  have turned : Fresh world (p :: front) := by
    have order : (front ++ [p]).Perm (p :: front) :=
      List.perm_append_singleton p front
    exact ⟨fun other member => fresh.alive other (order.mem_iff.mpr member),
      (order.map Datagram.number).nodup_iff.mp fresh.apart⟩
  exact turned.free_head

theorem record_record
    (world : World Kernel) (first second : List QueueAction) :
    (world.record first).record second = world.record (first ++ second) := by
  simp [World.record]

theorem record_nil (world : World Kernel) : world.record [] = world := by
  simp [World.record]

/-- The send loop does to the slots what `attempt` does to the list. -/
theorem sendLoop_apply
    {fwd : UdpForward} (rest : List Datagram) {front : List Datagram}
    (holds : fwd.rcvq.Holds (front ++ rest))
    {world : World Kernel} (fresh : Fresh world rest)
    {heapbuff : Option (List UInt8)} (ready : HeapReady heapbuff) :
    sendLoop proxySend garbage fwd rest.length front.length heapbuff
        world =
      .ok (attempt proxySend rest world) := by
  induction rest generalizing front world heapbuff with
  | nil =>
      rfl
  | cons p rest induction =>
      have alive : Alive world p := fresh.alive p List.mem_cons_self
      rcases @sendDatagram_apply Kernel proxySend garbage world p alive
        heapbuff ready with ⟨next, nextReady, sent⟩
      simp only [List.length_cons, sendLoop, bind_apply,
        readSlot_apply holds, ok_bind, sent, ite_handler_apply,
        pure_apply, attempt]
      split
      · rfl
      · have further : fwd.rcvq.Holds ((front ++ [p]) ++ rest) := by
          rw [List.append_assoc]
          exact holds
        have later : Fresh (afterSend proxySend p world) rest :=
          ⟨fun other member =>
            alive_afterSend
              (fresh.alive other (List.mem_cons_of_mem p member)),
            (List.nodup_cons.mp fresh.apart).2⟩
        have step := induction further later nextReady
        rw [List.length_append] at step
        exact step

theorem freeLoop_apply
    {fwd : UdpForward} (rest : List Datagram) {front : List Datagram}
    (holds : fwd.rcvq.Holds (front ++ rest))
    {world : World Kernel} (fresh : Fresh world rest) :
    freeLoop fwd rest.length front.length world =
      .ok ((), world.record (rest.map freeing)) := by
  induction rest generalizing front world with
  | nil =>
      simp [freeLoop, record_nil]
  | cons p rest induction =>
      have alive : Alive world p := fresh.alive p List.mem_cons_self
      have further : fwd.rcvq.Holds ((front ++ [p]) ++ rest) := by
        rw [List.append_assoc]
        exact holds
      have step := induction further fresh.free_head
      rw [List.length_append] at step
      simp only [List.length_cons, freeLoop, bind_apply,
        readSlot_apply holds, ok_bind, pbufFree_apply alive]
      exact step.trans (by rw [record_record]; rfl)

theorem freeBackwards_apply
    {fwd : UdpForward} (front : List Datagram) {back : List Datagram}
    (holds : fwd.rcvq.Holds (front ++ back))
    {world : World Kernel} (fresh : Fresh world front) :
    freeBackwards fwd front.length world =
      .ok ((), world.record (front.reverse.map freeing)) := by
  induction front using List.reverseRecOn generalizing back world with
  | nil =>
      simp [freeBackwards, record_nil]
  | append_singleton front p induction =>
      have behind : fwd.rcvq.Holds (front ++ p :: back) := by
        rw [List.append_assoc] at holds
        exact holds
      have alive : Alive world p :=
        fresh.alive p
          (List.mem_append_right front (List.mem_singleton_self p))
      have step := induction behind fresh.free_last
      simp only [List.length_append, List.length_singleton,
        freeBackwards, bind_apply, readSlot_apply behind, ok_bind,
        pbufFree_apply alive]
      rw [step, record_record, List.reverse_append]
      rfl

/-! ## What the functions do -/

/-- What is done with a destroyed forward. -/
def destroying (fwd : UdpForward) (items : List Datagram) :
    List QueueAction :=
  items.reverse.map freeing ++
    (.udpRemove :: if fwd.proxy then [.proxyPut] else [])

theorem udpForwardDestroy_apply
    {fwd : UdpForward} {items : List Datagram}
    (queued : Queued fwd items)
    {world : World Kernel} (fresh : Fresh world items) :
    udpForwardDestroy fwd world =
      .ok ((), world.record (destroying fwd items)) := by
  have holds : fwd.rcvq.Holds (items ++ []) := by
    rw [List.append_nil]
    exact queued.holds
  have freed := freeBackwards_apply items holds fresh
  simp only [udpForwardDestroy, bind_apply, queued.count, freed, ok_bind,
    record_apply, record_record, destroying, List.singleton_append]

/-- The forward after its queue was sent. -/
def emptied (fwd : UdpForward) : UdpForward :=
  { refreshed fwd with nrcvq := 0 }

/-- What the sending of a queue leaves. -/
def outcome (fwd : UdpForward) (items : List Datagram) :
    Bool × World Kernel → Option UdpForward × World Kernel
  | (true, world) =>
      (some (emptied fwd),
        world.record (items.map freeing ++ [.proxyEvctl]))
  | (false, world) => (none, world.record (destroying fwd items))

theorem udpProxyOutput_apply
    {fwd : UdpForward} {items : List Datagram}
    (queued : Queued fwd items)
    {world : World Kernel} (fresh : Fresh world items) :
    udpProxyOutput proxySend garbage fwd world =
      .ok (outcome fwd items (attempt proxySend items world)) := by
  have kept : Queued (refreshed fwd) items :=
    ⟨queued.holds, queued.count⟩
  have ready : HeapReady none := by
    intro buffer equal
    cases equal
  have holds : (refreshed fwd).rcvq.Holds ([] ++ items) := queued.holds
  have looped :
      sendLoop proxySend garbage (refreshed fwd) items.length 0 none
          world =
        .ok (attempt proxySend items world) :=
    sendLoop_apply items holds fresh ready
  have later : Fresh (attempt proxySend items world).2 items :=
    fresh.attempt items
  simp only [udpProxyOutput, bind_apply, kept.count, looped]
  cases result : attempt proxySend items world with
  | mk sent next =>
      rw [result] at later
      cases sent with
      | true =>
          have freed :
              freeLoop (refreshed fwd) items.length 0 next =
                .ok ((), next.record (items.map freeing)) :=
            freeLoop_apply items holds later
          simp only [ok_bind, if_true, bind_apply, freed, record_apply,
            record_record, pure_apply]
          rfl
      | false =>
          have destroyed := udpForwardDestroy_apply kept later
          simp only [ok_bind, Bool.false_eq_true, if_false, bind_apply,
            destroyed, pure_apply]
          rfl

/-- The datagrams in a queue after another one has arrived. -/
def pushed (items : List Datagram) (p : Datagram) : List Datagram :=
  if items.length = rcvqLen then items.tail ++ [p] else items ++ [p]

/-- The datagrams which make room for it. -/
def dropped (items : List Datagram) : List Datagram :=
  if items.length = rcvqLen then items.take 1 else []

theorem enqueue_apply
    {fwd : UdpForward} {items : List Datagram}
    (queued : Queued fwd items)
    {world : World Kernel} (fresh : Fresh world items) (p : Datagram) :
    ∃ rcvq nrcvq,
      enqueue p fwd world =
          .ok
            ({ fwd with rcvq := rcvq, nrcvq := nrcvq },
              world.record ((dropped items).map freeing)) ∧
        Queued { fwd with rcvq := rcvq, nrcvq := nrcvq }
          (pushed items p) := by
  by_cases full : items.length = rcvqLen
  · cases items with
    | nil =>
        cases full
    | cons oldest rest =>
        have alive : Alive world oldest :=
          fresh.alive oldest List.mem_cons_self
        have front :
            fwd.rcvq.Holds (([] : List Datagram) ++ oldest :: rest) :=
          queued.holds
        have read : readSlot fwd 0 world = .ok (oldest, world) :=
          readSlot_apply front
        refine ⟨fwd.rcvq.moveDown.assign (rcvqLen - 1) p, fwd.nrcvq,
          ?_, ?_, ?_⟩
        · simp only [enqueue, queued.count, if_pos full,
            ite_handler_apply, bind_apply, read, ok_bind,
            pbufFree_apply alive, pure_apply, dropped]
          rfl
        · rw [pushed, if_pos full]
          exact queued.holds.slide full (by decide) p
        · rw [pushed, if_pos full]
          simp [queued.count]
  · have room : items.length < rcvqLen :=
      Nat.lt_of_le_of_ne queued.holds.length_le full
    refine ⟨fwd.rcvq.assign fwd.nrcvq p, fwd.nrcvq + 1, ?_, ?_, ?_⟩
    · simp only [enqueue, queued.count, if_neg full, ite_handler_apply,
        pure_apply, dropped, List.map_nil, record_nil]
    · rw [pushed, if_neg full, queued.count]
      exact queued.holds.push room p
    · rw [pushed, if_neg full]
      simp [queued.count]

end Loops

end Nsproxy.Core.UdpQueue
