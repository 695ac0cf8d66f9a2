import Nsproxy.Lib.SerialNumber
import Nsproxy.Lwip.Opts

/-!
# The data of incoming segments

The second half of `tcp_receive`.  What a segment has in sequence goes to the
application at once, with what was waiting for it on the `ooseq` queue.  What
is out of sequence is put on that queue, which is ordered, and cut so that
its segments do not overlap; a segment which is not needed is dropped.

Sequence numbers are `u32_t` and wrap; they are compared by the sign of their
difference.  Lengths are `u16_t`.  A segment here has neither SYN nor URG,
and its pbufs are its bytes.  The assertions end the process.
-/

namespace Nsproxy.Lwip.Reassembly

open Nsproxy.Lib.SerialNumber
open Nsproxy.Lwip.Opts

/-! ## Sequence numbers -/

abbrev Seqno := BitVec 32

def tcpSeqLt (first second : Seqno) : Bool :=
  decide (difference first second < 0)

def tcpSeqLeq (first second : Seqno) : Bool :=
  decide (difference first second ≤ 0)

def tcpSeqGt (first second : Seqno) : Bool :=
  decide (0 < difference first second)

def tcpSeqGeq (first second : Seqno) : Bool :=
  decide (0 ≤ difference first second)

/-- `TCP_SEQ_BETWEEN`: `low <= seqno <= high`. -/
def tcpSeqBetween (seqno low high : Seqno) : Bool :=
  tcpSeqGeq seqno low && tcpSeqLeq seqno high

/-- A number as `u32_t`. -/
def u32 (value : Nat) : Seqno := BitVec.ofNat 32 value

/-- The difference of two sequence numbers as `u16_t`. -/
def u16 (number : Seqno) : Nat := number.toNat % 65536

/-! ## Segments -/

/-- `struct tcp_seg`; no IP packet is long enough for more data. -/
structure Seg where
  seqno : Seqno
  data : List UInt8
  fin : Bool
  short : data.length < 65535
deriving DecidableEq

namespace Seg

/-- `seg->len`. -/
def len (seg : Seg) : Nat := seg.data.length

/-- `TCP_TCPLEN`. -/
def tcplen (seg : Seg) : Nat := seg.len + if seg.fin then 1 else 0

/-- `seg->len` is lowered, and `pbuf_realloc` follows. -/
def trim (seg : Seg) (len : Nat) : Seg :=
  { seg with
    data := seg.data.take len
    short :=
      Nat.lt_of_le_of_lt (List.length_take_le' _ _) seg.short }

/-- The first bytes are taken away. -/
def advance (seg : Seg) (offset : Nat) (seqno : Seqno) : Seg where
  seqno := seqno
  data := seg.data.drop offset
  fin := seg.fin
  short :=
    Nat.lt_of_le_of_lt
      (List.length_drop ▸ Nat.sub_le _ _) seg.short

/-- `TCPH_SET_FLAG(seg->tcphdr, TCP_FIN)`. -/
def setFin (seg : Seg) : Seg := { seg with fin := true }

/-- `TCP_FIN` is taken out of the flags. -/
def clearFin (seg : Seg) : Seg := { seg with fin := false }

end Seg

/-! ## The receiver -/

/-- The assertions which are made of the data. -/
inductive Assertion where
  | insaneOffset
  | pbufTooShort
  | windowCheck16
  | notTrimmedToRcvWnd
  | notTrimmedToOoseq
  | tcplenOverRcvWnd
  | ooseqTcplenOverRcvWnd
  | queuedNotTrimmedToRcvWnd
deriving DecidableEq, Repr

/-- What of the pcb the data concerns. -/
structure Receiver where
  rcvNxt : Seqno
  rcvWnd : Nat
  ooseq : List Seg
  /-- `state < CLOSE_WAIT`. -/
  receives : Bool
deriving DecidableEq

/-- `recv_data`, and `TF_GOT_FIN` of `recv_flags`. -/
structure Received where
  data : List UInt8
  gotFin : Bool
deriving DecidableEq

/-- Nothing for the application. -/
def nothing : Received := { data := [], gotFin := false }

/-! ## Segments in sequence -/

/-- The first edge is trimmed where a part of the segment is old. -/
def trimFront (pcb : Receiver) (inseg : Seg) : Except Assertion Seg :=
  if tcpSeqBetween pcb.rcvNxt (inseg.seqno + u32 1)
      (inseg.seqno + u32 inseg.tcplen - u32 1) then
    let off32 := (pcb.rcvNxt - inseg.seqno).toNat
    if 0xffff ≤ off32 then
      .error .insaneOffset
    else if inseg.len < off32 then
      .error .pbufTooShort
    else
      .ok (inseg.advance off32 pcb.rcvNxt)
  else
    .ok inseg

/-- A segment in sequence is adjusted to fit in the window. -/
def trimToWindow (pcb : Receiver) (inseg : Seg) : Except Assertion Seg :=
  if pcb.rcvWnd < inseg.tcplen then
    if 0xffff < pcb.rcvWnd then
      .error .windowCheck16
    else
      let cut := inseg.clearFin.trim pcb.rcvWnd
      if inseg.seqno + u32 cut.tcplen = pcb.rcvNxt + u32 pcb.rcvWnd then
        .ok cut
      else
        .error .notTrimmedToRcvWnd
  else
    .ok inseg

/--
The queued segments which a segment in sequence covers are removed; a FIN of
theirs is copied.
-/
def absorb (inseg : Seg) : List Seg → Seg × List Seg
  | [] => (inseg, [])
  | next :: rest =>
      if tcpSeqGeq (inseg.seqno + u32 inseg.tcplen)
          (next.seqno + u32 next.len) then
        absorb (if next.fin then inseg.setFin else inseg) rest
      else
        (inseg, next :: rest)

/-- The right side is trimmed where it overlaps with the queue. -/
def trimToOoseq (inseg : Seg) : List Seg → Except Assertion Seg
  | [] => .ok inseg
  | next :: _ =>
      if tcpSeqGt (inseg.seqno + u32 inseg.tcplen) next.seqno then
        let cut := inseg.trim (u16 (next.seqno - inseg.seqno))
        if inseg.seqno + u32 cut.tcplen = next.seqno then
          .ok cut
        else
          .error .notTrimmedToOoseq
      else
        .ok inseg

/-- The queue is adjusted to a segment in sequence, and the other way. -/
def adjustOoseq (inseg : Seg) (ooseq : List Seg) :
    Except Assertion (Seg × List Seg) :=
  if inseg.fin then
    .ok (inseg, [])
  else
    let absorbed := absorb inseg ooseq
    match trimToOoseq absorbed.1 absorbed.2 with
    | .ok cut => .ok (cut, absorbed.2)
    | .error assertion => .error assertion

/-- `rcv_nxt` and `rcv_wnd` move over a segment. -/
def accept (pcb : Receiver) (seg : Seg) (assertion : Assertion) :
    Except Assertion Receiver :=
  if pcb.rcvWnd < seg.tcplen then
    .error assertion
  else
    .ok
      { pcb with
        rcvNxt := pcb.rcvNxt + u32 seg.tcplen
        rcvWnd := pcb.rcvWnd - seg.tcplen }

/-- A segment is added to what goes to the application. -/
def Received.add (received : Received) (seg : Seg) : Received where
  data := received.data ++ seg.data
  gotFin := received.gotFin || seg.fin

/-- Queued segments which are now in sequence are taken off the queue. -/
def dequeue : List Seg → Receiver → Received →
    Except Assertion (Receiver × Received)
  | [], pcb, received => .ok ({ pcb with ooseq := [] }, received)
  | cseg :: rest, pcb, received =>
      if cseg.seqno = pcb.rcvNxt then
        match accept pcb cseg .ooseqTcplenOverRcvWnd with
        | .ok next => dequeue rest next (received.add cseg)
        | .error assertion => .error assertion
      else
        .ok ({ pcb with ooseq := cseg :: rest }, received)

/-- A segment which begins at `rcv_nxt`. -/
def receiveInSequence (pcb : Receiver) (inseg : Seg) :
    Except Assertion (Receiver × Received) :=
  match trimToWindow pcb inseg with
  | .error assertion => .error assertion
  | .ok fitting =>
      match adjustOoseq fitting pcb.ooseq with
      | .error assertion => .error assertion
      | .ok (seg, ooseq) =>
          match accept pcb seg .tcplenOverRcvWnd with
          | .error assertion => .error assertion
          | .ok next => dequeue ooseq next (nothing.add seg)

/-! ## Segments out of sequence -/

/-- The loop of `tcp_oos_insert_segment`, and the trimming behind it. -/
def insertBefore (cseg : Seg) : List Seg → List Seg
  | [] => [cseg]
  | next :: rest =>
      if tcpSeqGeq (cseg.seqno + u32 cseg.len)
          (next.seqno + u32 next.len) then
        insertBefore (if next.fin then cseg.setFin else cseg) rest
      else if tcpSeqGt (cseg.seqno + u32 cseg.len) next.seqno then
        cseg.trim (u16 (next.seqno - cseg.seqno)) :: next :: rest
      else
        cseg :: next :: rest

/-- `tcp_oos_insert_segment`. -/
def tcpOosInsertSegment (cseg : Seg) (next : List Seg) : List Seg :=
  if cseg.fin then [cseg] else insertBefore cseg next

/-- A queued segment is trimmed where the next one begins. -/
def trimBack (seg : Seg) (seqno : Seqno) : Seg :=
  if tcpSeqGt (seg.seqno + u32 seg.len) seqno then
    seg.trim (u16 (seqno - seg.seqno))
  else
    seg

/-- The last segment of the queue is adjusted to fit in the window. -/
def clipToWindow (pcb : Receiver) (seg : Seg) : Except Assertion Seg :=
  if tcpSeqGt (u32 seg.tcplen + seg.seqno)
      (pcb.rcvNxt + u32 pcb.rcvWnd) then
    let cut :=
      seg.clearFin.trim
        (u16 (pcb.rcvNxt + u32 pcb.rcvWnd - seg.seqno))
    if seg.seqno + u32 cut.tcplen = pcb.rcvNxt + u32 pcb.rcvWnd then
      .ok cut
    else
      .error .queuedNotTrimmedToRcvWnd
  else
    .ok seg

/-- The place between the previous segment and the next one. -/
def fitsBefore (inseg : Seg) (prev : Option Seg) (next : Seg) : Bool :=
  match prev with
  | none => tcpSeqLt inseg.seqno next.seqno
  | some prev =>
      tcpSeqBetween inseg.seqno (prev.seqno + u32 1) (next.seqno - u32 1)

/--
The walk through the queue; what comes out is the queue from `prev` on.
-/
def walk (pcb : Receiver) (inseg : Seg) :
    Option Seg → List Seg → Except Assertion (List Seg)
  | prev, [] => .ok prev.toList
  | prev, next :: rest =>
      if inseg.seqno = next.seqno then
        if next.len < inseg.len then
          .ok (prev.toList ++ tcpOosInsertSegment inseg (next :: rest))
        else
          .ok (prev.toList ++ next :: rest)
      else if fitsBefore inseg prev next then
        .ok
          ((prev.map (trimBack · inseg.seqno)).toList ++
            tcpOosInsertSegment inseg (next :: rest))
      else if rest.isEmpty && tcpSeqGt inseg.seqno next.seqno then
        if next.fin then
          .ok (prev.toList ++ [next])
        else
          match clipToWindow pcb inseg with
          | .ok last =>
              .ok (prev.toList ++ [trimBack next inseg.seqno, last])
          | .error assertion => .error assertion
      else
        match walk pcb inseg (some next) rest with
        | .ok later => .ok (prev.toList ++ later)
        | .error assertion => .error assertion

/--
A segment behind a gap.  Where `tcp_seg_copy` has no memory for the copy,
the queue stays as it was.
-/
def receiveOutOfSequence (pcb : Receiver) (inseg : Seg) (copied : Bool) :
    Except Assertion (Receiver × Received) :=
  if copied then
    match pcb.ooseq with
    | [] => .ok ({ pcb with ooseq := [inseg] }, nothing)
    | _ :: _ =>
        match walk pcb inseg none pcb.ooseq with
        | .ok ooseq => .ok ({ pcb with ooseq := ooseq }, nothing)
        | .error assertion => .error assertion
  else
    .ok (pcb, nothing)

/-! ## All of it -/

/--
`tcp_process` leaves the states before `CLOSE_WAIT` when `tcp_receive` has
got a FIN.
-/
def leaveOnFin (result : Receiver × Received) : Receiver × Received :=
  if result.2.gotFin then
    ({ result.1 with receives := false }, result.2)
  else
    result

/-- What `tcp_receive` does with the data of a segment. -/
def tcpReceive (pcb : Receiver) (inseg : Seg) (copied : Bool) :
    Except Assertion (Receiver × Received) :=
  if 0 < inseg.tcplen ∧ pcb.receives = true then
    match trimFront pcb inseg with
    | .error assertion => .error assertion
    | .ok seg =>
        if tcpSeqBetween seg.seqno pcb.rcvNxt
            (pcb.rcvNxt + u32 pcb.rcvWnd - u32 1) then
          if pcb.rcvNxt = seg.seqno then
            (receiveInSequence pcb seg).map leaveOnFin
          else
            receiveOutOfSequence pcb seg copied
        else
          .ok (pcb, nothing)
  else
    .ok (pcb, nothing)

/-- `tcp_free_ooseq`. -/
def tcpFreeOoseq (pcb : Receiver) : Receiver :=
  { pcb with ooseq := [] }

/-- `TCP_WND_MAX`. -/
def tcpWndMax (wndScale : Bool) : Nat :=
  if wndScale then tcpWnd else tcpwnd16 tcpWnd

/-- `tcp_recved` credits what the application is done with. -/
def tcpRecved (wndScale : Bool) (pcb : Receiver) (len : Nat) : Receiver :=
  { pcb with rcvWnd := min (pcb.rcvWnd + len) (tcpWndMax wndScale) }

end Nsproxy.Lwip.Reassembly
