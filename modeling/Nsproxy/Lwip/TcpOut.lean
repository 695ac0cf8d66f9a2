import Mathlib.Tactic.Common
import Nsproxy.Lwip.Opts

/-!
# The sending half of a TCP connection

The protocol control block and the functions of `tcp_out.c` which queue and
emit segments: `tcp_write` without the copy flag, `tcp_send_fin`,
`tcp_output`, and the functions which put segments back for retransmission or
split them.

Sequence numbers are natural numbers that do not wrap; every comparison of
the source is between numbers less than 2^31 apart, where both readings
agree.  `TF_NODELAY` is set on every connection of the forwarder, so the
Nagle test never stops `tcp_output`.  Memory allocation does not fail: the
stack is configured to use `malloc`.  No timestamp option is negotiated, so a
data segment carries no options.
-/

namespace Nsproxy.Lwip.TcpOut

open Nsproxy.Lwip.Opts

/-! ## Segments and the control block -/

/-- `enum tcp_state`. -/
inductive TcpState where
  | closed
  | listen
  | synSent
  | synRcvd
  | established
  | finWait1
  | finWait2
  | closeWait
  | closing
  | lastAck
  | timeWait
deriving DecidableEq, Repr

/--
A queued segment.  Its first pbuf holds the header, the options and `inline`
payload; `roms` are the payloads of the pbufs chained behind it.
-/
structure TcpSeg where
  seqno : Nat
  inline : List UInt8
  roms : List (List UInt8)
  optlen : Nat
  syn : Bool
  fin : Bool
deriving DecidableEq, Repr

namespace TcpSeg

/-- The payload of a segment. -/
def data (seg : TcpSeg) : List UInt8 := seg.inline ++ seg.roms.flatten

/-- `seg->len`. -/
def len (seg : TcpSeg) : Nat := seg.data.length

/-- `TCP_TCPLEN(seg)`: a SYN or a FIN occupies one sequence number. -/
def tcplen (seg : TcpSeg) : Nat :=
  seg.len + if seg.syn || seg.fin then 1 else 0

/-- `pbuf_clen(seg->p)`. -/
def pbufClen (seg : TcpSeg) : Nat := 1 + seg.roms.length

/-- `seg->p->tot_len` once the TCP and IP headers are in front. -/
def totLen (seg : TcpSeg) (ipHeader : Nat) : Nat :=
  ipHeader + 20 + seg.optlen + seg.len

end TcpSeg

/-- `struct tcp_pcb`, less the fields that only tune timing. -/
structure TcpPcb where
  state : TcpState
  /-- The callbacks and their argument are registered. -/
  callbacks : Bool
  /-- The connection runs over IPv6. -/
  ipv6 : Bool
  proxyestab : Bool
  mss : Nat
  mss_le : mss ≤ tcpMss
  rcvNxt : Nat
  rcvWnd : Nat
  rcvAnnWnd : Nat
  rcvAnnRightEdge : Nat
  /-- `TF_WND_SCALE`. -/
  wndScale : Bool
  /-- `TF_ACK_DELAY`. -/
  ackDelay : Bool
  /-- `TF_ACK_NOW`. -/
  ackNow : Bool
  /-- `TF_RXCLOSED`. -/
  rxClosed : Bool
  lastack : Nat
  sndNxt : Nat
  sndLbb : Nat
  sndWnd : Nat
  sndWndMax : Nat
  cwnd : Nat
  sndBuf : Nat
  sndQueuelen : Nat
  unsent : List TcpSeg
  unacked : List TcpSeg
  nrtx : Nat
  persistBackoff : Nat
  persistProbe : Nat
  /-- `tmr`: the tick of the last accepted segment. -/
  tmr : Nat
deriving DecidableEq, Repr

namespace TcpPcb

/-- The length of the IP header in front of each segment. -/
def ipHeader (pcb : TcpPcb) : Nat := if pcb.ipv6 then 40 else 20

/-- `tcp_sndbuf(pcb)`: the free send buffer, as a 16-bit number. -/
def tcpSndbuf (pcb : TcpPcb) : Nat := tcpwnd16 pcb.sndBuf

/-- `TCP_WND_MAX(pcb)`. -/
def tcpWndMax (pcb : TcpPcb) : Nat :=
  if pcb.wndScale then tcpWnd else tcpwnd16 tcpWnd

/-- The segment size of `tcp_write`: at most half the largest window seen. -/
def mssLocal (pcb : TcpPcb) : Nat :=
  let half := min pcb.mss (min 0xffff (pcb.sndWndMax / 2))
  if half = 0 then pcb.mss else half

end TcpPcb

/-! ## Queueing data -/

/-- `tcp_write_checks`. -/
def tcpWriteChecks (pcb : TcpPcb) (len : Nat) : Except Fault ErrT :=
  if pcb.state ≠ .established ∧ pcb.state ≠ .closeWait ∧
      pcb.state ≠ .synSent ∧ pcb.state ≠ .synRcvd then
    .ok .conn
  else if len = 0 then
    .ok .ok
  else if pcb.sndBuf < len then
    .ok .mem
  else if min tcpSndQueuelen (tcpSndqueuelenOverflow + 1) ≤
      pcb.sndQueuelen then
    .ok .mem
  else if pcb.sndQueuelen ≠ 0 then
    if pcb.unacked ≠ [] ∨ pcb.unsent ≠ [] then
      .ok .ok
    else
      .error .assertion
  else if pcb.unacked = [] ∧ pcb.unsent = [] then
    .ok .ok
  else
    .error .assertion

/-- A data segment of `tcp_write`: a header pbuf and one `PBUF_ROM`. -/
def romSegment (seqno : Nat) (data : List UInt8) : TcpSeg where
  seqno := seqno
  inline := []
  roms := [data]
  optlen := 0
  syn := false
  fin := false

/--
Phase 3 of `tcp_write`: cut the remaining data into new segments of at most
`maxLen` bytes, unless the queue gets too long.  The result is `none` for the
memory error.  The first argument bounds the number of segments.
-/
def createSegments (maxLen : Nat) :
    Nat → Nat → Nat → List UInt8 → Option (List TcpSeg × Nat)
  | _, queuelen, _, [] => some ([], queuelen)
  | 0, _, _, _ :: _ => none
  | fuel + 1, queuelen, seqno, byte :: rest =>
      let data := byte :: rest
      if min tcpSndQueuelen tcpSndqueuelenOverflow < queuelen + 2 then
        none
      else
        match createSegments maxLen fuel (queuelen + 2)
            (seqno + (data.take maxLen).length) (data.drop maxLen) with
        | none => none
        | some (segs, total) =>
            some (romSegment seqno (data.take maxLen) :: segs, total)

/-- The space phase 2 of `tcp_write` finds in the last unsent segment. -/
def appendSpace (pcb : TcpPcb) (last : TcpSeg) : Nat :=
  if last.len = 0 then 0 else pcb.mssLocal - (last.len + last.optlen)

/-- Phase 2 of `tcp_write`: chain one more `PBUF_ROM` to a segment. -/
def appendRom (last : TcpSeg) (data : List UInt8) : TcpSeg :=
  { last with roms := last.roms ++ [data] }

/-- The commit at the end of `tcp_write`. -/
def commitWrite
    (pcb : TcpPcb) (unsent : List TcpSeg) (len queuelen : Nat) :
    TcpPcb :=
  { pcb with
    unsent := unsent
    sndLbb := pcb.sndLbb + len
    sndBuf := pcb.sndBuf - len
    sndQueuelen := queuelen }

/-- Phases 2 and 3 of `tcp_write` with a last unsent segment. -/
def writeBehind
    (pcb : TcpPcb) (front : List TcpSeg) (last : TcpSeg)
    (data : List UInt8) : ErrT × TcpPcb :=
  let space := min (appendSpace pcb last) data.length
  let tail := if space = 0 then last else appendRom last (data.take space)
  let queuelen :=
    if space = 0 then pcb.sndQueuelen else pcb.sndQueuelen + 1
  match createSegments pcb.mssLocal data.length queuelen
      (pcb.sndLbb + space) (data.drop space) with
  | none => (.mem, pcb)
  | some (segs, total) =>
      (.ok, commitWrite pcb (front ++ tail :: segs) data.length total)

/-- Phase 3 of `tcp_write` on an empty queue. -/
def writeFresh (pcb : TcpPcb) (data : List UInt8) : ErrT × TcpPcb :=
  match createSegments pcb.mssLocal data.length pcb.sndQueuelen
      pcb.sndLbb data with
  | none => (.mem, pcb)
  | some (segs, total) =>
      (.ok, commitWrite pcb segs data.length total)

/--
`tcp_write(pcb, data, len, 0)`.  The referenced buffers are separate
allocations, so the last pbuf is never extended in place.
-/
def tcpWrite (pcb : TcpPcb) (data : List UInt8) :
    Except Fault (ErrT × TcpPcb) :=
  match tcpWriteChecks pcb data.length with
  | .error fault => .error fault
  | .ok .ok =>
      match pcb.unsent.getLast? with
      | none => .ok (writeFresh pcb data)
      | some last =>
          if pcb.mssLocal < last.len + last.optlen then
            .error .assertion
          else
            .ok (writeBehind pcb pcb.unsent.dropLast last data)
  | .ok err => .ok (err, pcb)

/-! ## SYN and FIN -/

/-- A bare FIN. -/
def finSegment (seqno : Nat) : TcpSeg where
  seqno := seqno
  inline := []
  roms := []
  optlen := 0
  syn := false
  fin := true

/-- `tcp_enqueue_flags(pcb, TCP_FIN)`. -/
def tcpEnqueueFin (pcb : TcpPcb) : TcpPcb :=
  { pcb with
    unsent := pcb.unsent ++ [finSegment pcb.sndLbb]
    sndLbb := pcb.sndLbb + 1
    sndQueuelen := pcb.sndQueuelen + 1 }

/--
`tcp_send_fin`: put the FIN on the last unsent segment, if that has no SYN
or FIN yet, or queue a segment for it.
-/
def tcpSendFin (pcb : TcpPcb) : TcpPcb :=
  match pcb.unsent.getLast? with
  | none => tcpEnqueueFin pcb
  | some last =>
      if last.syn || last.fin then
        tcpEnqueueFin pcb
      else
        { pcb with
          unsent := pcb.unsent.dropLast ++ [{ last with fin := true }] }

/-! ## Emitting segments -/

/-- What a connection hands to the network interface. -/
inductive Emission where
  | segment (seg : TcpSeg)
  | emptyAck
  | reset
deriving DecidableEq, Repr

/--
The test of `tun_output`: the packet has at most 16 pbufs and fits the MTU.
-/
def tunAccepts (pcb : TcpPcb) (seg : TcpSeg) : Bool :=
  decide (seg.pbufClen ≤ 16 ∧ seg.totLen pcb.ipHeader ≤ nsproxyMtu)

/-- Insert before the first segment whose number is not smaller. -/
def insertSorted (seg : TcpSeg) : List TcpSeg → List TcpSeg
  | [] => [seg]
  | first :: rest =>
      if first.seqno < seg.seqno then
        first :: insertSorted seg rest
      else
        seg :: first :: rest

/-- Where `tcp_output` puts a sent segment on the unacked list. -/
def enqueueUnacked (seg : TcpSeg) (unacked : List TcpSeg) : List TcpSeg :=
  match unacked.getLast? with
  | none => [seg]
  | some last =>
      if seg.seqno < last.seqno then
        insertSorted seg unacked
      else
        unacked ++ [seg]

/-- Every header which is filled in announces the current window. -/
def announce (pcb : TcpPcb) : TcpPcb :=
  { pcb with rcvAnnRightEdge := pcb.rcvNxt + pcb.rcvAnnWnd }

/-- The bookkeeping of `tcp_output` after one segment was sent. -/
def segmentSent (pcb : TcpPcb) (seg : TcpSeg) (rest : List TcpSeg) :
    TcpPcb :=
  { announce pcb with
    unsent := rest
    ackDelay := false
    ackNow := false
    sndNxt := max pcb.sndNxt (seg.seqno + seg.tcplen)
    unacked :=
      if seg.tcplen = 0 then pcb.unacked
      else enqueueUnacked seg pcb.unacked }

/-- Whether the window of `tcp_output` admits the segment. -/
def fitsWindow (pcb : TcpPcb) (seg : TcpSeg) : Bool :=
  decide
    (seg.seqno + seg.len - pcb.lastack ≤ min pcb.sndWnd pcb.cwnd)

/--
The loop of `tcp_output` over the unsent queue.  The writes to the TUN
device succeed, apart from those listed as `false`; a rejected segment stays
at the head of the queue.
-/
def outputLoop :
    List TcpSeg → List Bool → TcpPcb → ErrT × TcpPcb × List Emission
  | [], _, pcb => (.ok, pcb, [])
  | seg :: rest, writes, pcb =>
      if fitsWindow pcb seg then
        if tunAccepts pcb seg && writes.headD true then
          match outputLoop rest writes.tail (segmentSent pcb seg rest) with
          | (err, last, emitted) => (err, last, .segment seg :: emitted)
        else
          (.netif, announce pcb, [])
      else
        (.ok, pcb, [])

/-- Start the persist timer when the head does not fit and nothing flies. -/
def startPersist (pcb : TcpPcb) : TcpPcb :=
  if min pcb.sndWnd pcb.cwnd = pcb.sndWnd ∧ pcb.unacked = [] ∧
      pcb.persistBackoff = 0 then
    { pcb with persistBackoff := 1, persistProbe := 0 }
  else
    pcb

/-- `tcp_send_empty_ack`: a failed one is retried by the fast timer. -/
def tcpSendEmptyAck (writes : List Bool) (pcb : TcpPcb) :
    ErrT × TcpPcb × List Emission :=
  if writes.headD true then
    (.ok, { announce pcb with ackDelay := false, ackNow := false },
      [.emptyAck])
  else
    (.netif, { announce pcb with ackDelay := true, ackNow := true }, [])

/--
`tcp_output`.  It does nothing before the proxy connection is established,
nor while `tcp_input` processes a segment of this very connection.
-/
def tcpOutput (inputPcb : Bool) (writes : List Bool) (pcb : TcpPcb) :
    ErrT × TcpPcb × List Emission :=
  if !pcb.proxyestab then
    (.ok, pcb, [])
  else if inputPcb then
    (.ok, pcb, [])
  else
    match pcb.unsent with
    | [] =>
        if pcb.ackNow then tcpSendEmptyAck writes pcb else (.ok, pcb, [])
    | seg :: _ =>
        if fitsWindow pcb seg then
          outputLoop pcb.unsent writes { pcb with persistBackoff := 0 }
        else if pcb.ackNow then
          tcpSendEmptyAck writes (startPersist pcb)
        else
          (.ok, startPersist pcb, [])

/-! ## Retransmission and splitting -/

/-- `tcp_rexmit_rto_prepare`: everything unacked is unsent again. -/
def tcpRexmitRtoPrepare (pcb : TcpPcb) : TcpPcb :=
  { pcb with unsent := pcb.unacked ++ pcb.unsent, unacked := [] }

/-- `tcp_rexmit`: the first unacked segment is unsent again. -/
def tcpRexmit (pcb : TcpPcb) : TcpPcb :=
  match pcb.unacked with
  | [] => pcb
  | seg :: rest =>
      { pcb with
        unacked := rest
        unsent := insertSorted seg pcb.unsent
        nrtx := if pcb.nrtx < 0xff then pcb.nrtx + 1 else pcb.nrtx }

/--
`pbuf_realloc` on the payload buffers behind the header pbuf: keep the first
`len` bytes, and no buffer after the one where they end.
-/
def trimRoms : Nat → List (List UInt8) → List (List UInt8)
  | _, [] => []
  | len, rom :: rest =>
      if len ≤ rom.length then
        [rom.take len]
      else
        rom :: trimRoms (len - rom.length) rest

/-- The part of a segment which stays at the head after a split. -/
def splitHead (seg : TcpSeg) (split : Nat) : TcpSeg :=
  if split ≤ seg.inline.length then
    { seg with inline := seg.inline.take split, roms := [] }
  else
    { seg with roms := trimRoms (split - seg.inline.length) seg.roms }

/-- The copied remainder of a split segment: one pbuf. -/
def splitRemainder (seg : TcpSeg) (split : Nat) : TcpSeg where
  seqno := seg.seqno + split
  inline := seg.data.drop split
  roms := []
  optlen := seg.optlen
  syn := false
  fin := seg.fin

/-- `tcp_split_unsent_seg`. -/
def tcpSplitUnsentSeg (pcb : TcpPcb) (split : Nat) :
    Except Fault TcpPcb :=
  match pcb.unsent with
  | [] => .ok pcb
  | seg :: rest =>
      if split = 0 then
        .error .assertion
      else if seg.len ≤ split then
        .ok pcb
      else if pcb.mss < split then
        .error .assertion
      else
        .ok
          { pcb with
            unsent :=
              splitHead seg split :: splitRemainder seg split :: rest
            sndQueuelen :=
              pcb.sndQueuelen - seg.pbufClen +
                (splitHead seg split).pbufClen + 1 }

/-! ## What the functions change -/

/--
`tcp_write` either fails and changes nothing, or commits: it takes the bytes
from the send buffer and touches only the unsent queue and its counters.
-/
theorem tcpWrite_cases
    {pcb next : TcpPcb} {data : List UInt8} {err : ErrT}
    (written : tcpWrite pcb data = .ok (err, next)) :
    (err = .ok ∧
        ∃ unsent queuelen,
          next = commitWrite pcb unsent data.length queuelen) ∨
      (err ≠ .ok ∧ next = pcb) := by
  unfold tcpWrite at written
  split at written
  · cases written
  · split at written
    · simp only [Except.ok.injEq, writeFresh] at written
      split at written
      · cases written
        exact .inr ⟨by simp, rfl⟩
      · cases written
        exact .inl ⟨rfl, _, _, rfl⟩
    · split at written
      · cases written
      · simp only [Except.ok.injEq, writeBehind] at written
        split at written
        · cases written
          exact .inr ⟨by simp, rfl⟩
        · cases written
          exact .inl ⟨rfl, _, _, rfl⟩
  · next refused checked =>
      cases written
      exact .inr ⟨refused, rfl⟩

theorem tcpWriteChecks_fault
    {pcb : TcpPcb} {len : Nat} {fault : Fault}
    (failed : tcpWriteChecks pcb len = .error fault) :
    fault = .assertion := by
  unfold tcpWriteChecks at failed
  repeat' split at failed
  all_goals cases failed
  all_goals rfl

/-- `tcp_write` accesses nothing that may have been freed. -/
theorem tcpWrite_fault
    {pcb : TcpPcb} {data : List UInt8} {fault : Fault}
    (failed : tcpWrite pcb data = .error fault) :
    fault = .assertion := by
  unfold tcpWrite at failed
  split at failed
  · next checked =>
      cases failed
      exact tcpWriteChecks_fault checked
  · split at failed
    · cases failed
    · split at failed
      · cases failed
        rfl
      · cases failed
  · cases failed

/-- The fields which emitting segments may change. -/
def Emits (before after : TcpPcb) : Prop :=
  ∃ unsent unacked sndNxt ackDelay ackNow persistBackoff persistProbe
      rightEdge,
    after =
      { before with
        unsent := unsent
        unacked := unacked
        sndNxt := sndNxt
        ackDelay := ackDelay
        ackNow := ackNow
        persistBackoff := persistBackoff
        persistProbe := persistProbe
        rcvAnnRightEdge := rightEdge }

theorem Emits.refl (pcb : TcpPcb) : Emits pcb pcb :=
  ⟨_, _, _, _, _, _, _, _, rfl⟩

theorem Emits.trans
    {first second third : TcpPcb}
    (before : Emits first second) (after : Emits second third) :
    Emits first third := by
  rcases before with ⟨_, _, _, _, _, _, _, _, rfl⟩
  rcases after with ⟨_, _, _, _, _, _, _, _, rfl⟩
  exact ⟨_, _, _, _, _, _, _, _, rfl⟩

theorem emits_outputLoop
    (segs : List TcpSeg) (writes : List Bool) (pcb : TcpPcb) :
    Emits pcb (outputLoop segs writes pcb).2.1 := by
  induction segs generalizing writes pcb with
  | nil =>
      exact Emits.refl pcb
  | cons seg rest induction =>
      simp only [outputLoop]
      split
      · split
        · have sent : Emits pcb (segmentSent pcb seg rest) :=
            ⟨_, _, _, _, _, _, _, _, rfl⟩
          exact sent.trans (induction _ _)
        · exact ⟨_, _, _, _, _, _, _, _, rfl⟩
      · exact Emits.refl pcb

theorem emits_startPersist (pcb : TcpPcb) :
    Emits pcb (startPersist pcb) := by
  simp only [startPersist]
  split
  · exact ⟨_, _, _, _, _, _, _, _, rfl⟩
  · exact Emits.refl pcb

theorem emits_tcpSendEmptyAck (writes : List Bool) (pcb : TcpPcb) :
    Emits pcb (tcpSendEmptyAck writes pcb).2.1 := by
  simp only [tcpSendEmptyAck]
  split
  · exact ⟨_, _, _, _, _, _, _, _, rfl⟩
  · exact ⟨_, _, _, _, _, _, _, _, rfl⟩

/-- `tcp_output` only moves segments between the queues. -/
theorem emits_tcpOutput
    (inputPcb : Bool) (writes : List Bool) (pcb : TcpPcb) :
    Emits pcb (tcpOutput inputPcb writes pcb).2.1 := by
  simp only [tcpOutput]
  split
  · exact Emits.refl pcb
  · split
    · exact Emits.refl pcb
    · split
      · split
        · exact emits_tcpSendEmptyAck writes pcb
        · exact Emits.refl pcb
      · split
        · have stopped : Emits pcb { pcb with persistBackoff := 0 } :=
            ⟨_, _, _, _, _, _, _, _, rfl⟩
          exact stopped.trans (emits_outputLoop _ _ _)
        · split
          · exact (emits_startPersist pcb).trans
              (emits_tcpSendEmptyAck writes _)
          · exact emits_startPersist pcb

end Nsproxy.Lwip.TcpOut
