import Mathlib.Tactic.Common
import Nsproxy.Lwip.Buffers
import Nsproxy.Lwip.Tcp

/-!
# The receiving half of a TCP connection

The functions of `tcp_in.c`: how a SYN makes a control block, and what an
incoming segment does to one.

A segment is described by its effect.  The trimming and reassembly of
`tcp_receive` are left to the environment, which says what the segment makes
deliverable, in order; so are the test whether its window is newer than the
known one, the counting of duplicate acknowledgements, and the congestion
window, which depends on measured times.  The acknowledgement itself, the
queues it frees and the transitions of `tcp_process` are computed.
-/

namespace Nsproxy.Lwip.TcpIn

open Nsproxy.Lwip.Opts
open Nsproxy.Lwip.Buffers
open Nsproxy.Lwip.TcpOut
open Nsproxy.Lwip.Tcp

/-! ## New connections -/

/-- What `tcp_listen_input` reads of a SYN. -/
structure Syn where
  seqno : Nat
  wnd : Nat
  /-- The MSS option. -/
  mss : Option Nat
  /-- The window scale option is present. -/
  wndScale : Bool
  ipv6 : Bool
deriving DecidableEq, Repr

/-- `INITIAL_MSS`. -/
def initialMss : Nat := min 536 tcpMss

/-- The segment size which `tcp_parseopt` takes from an MSS option. -/
def parseMss (mss : Option Nat) (current : Nat) : Nat :=
  match mss with
  | none => current
  | some mss => if tcpMss < mss ∨ mss = 0 then tcpMss else mss

/-- `tcp_eff_send_mss`: what fits the MTU of the TUN device. -/
def tcpEffSendMss (ipv6 : Bool) (mss : Nat) : Nat :=
  min mss (nsproxyMtu - if ipv6 then 60 else 40)

theorem parseMss_le (mss : Option Nat) {current : Nat}
    (bounded : current ≤ tcpMss) :
    parseMss mss current ≤ tcpMss := by
  unfold parseMss
  split
  · exact bounded
  · split
    · exact Nat.le_refl _
    · next given =>
        exact Nat.le_of_not_lt fun larger => given (.inl larger)

theorem tcpEffSendMss_le (ipv6 : Bool) {mss : Nat}
    (bounded : mss ≤ tcpMss) :
    tcpEffSendMss ipv6 mss ≤ tcpMss :=
  Nat.le_trans (Nat.min_le_left _ _) bounded

/-- The SYN+ACK of `tcp_enqueue_flags`, with its options. -/
def synAckSegment (iss : Nat) (wndScale : Bool) : TcpSeg where
  seqno := iss
  inline := []
  roms := []
  optlen := if wndScale then 8 else 4
  syn := true
  fin := false

/--
`tcp_listen_input`: the control block which `core_tcp_new` is given, with the
SYN+ACK on its unsent queue.
-/
def tcpListenInput (syn : Syn) (iss ticks : Nat) : TcpPcb where
  state := .synRcvd
  callbacks := false
  ipv6 := syn.ipv6
  proxyestab := false
  mss := tcpEffSendMss syn.ipv6 (parseMss syn.mss initialMss)
  mss_le :=
    tcpEffSendMss_le syn.ipv6
      (parseMss_le syn.mss (Nat.min_le_right 536 tcpMss))
  rcvNxt := syn.seqno + 1
  rcvWnd := if syn.wndScale then tcpWnd else tcpwnd16 tcpWnd
  rcvAnnWnd := if syn.wndScale then tcpWnd else tcpwnd16 tcpWnd
  rcvAnnRightEdge := syn.seqno + 1
  wndScale := syn.wndScale
  ackDelay := false
  ackNow := false
  rxClosed := false
  lastack := iss
  sndNxt := iss
  sndLbb := iss + 1
  sndWnd := syn.wnd
  sndWndMax := syn.wnd
  cwnd := 1
  sndBuf := tcpSndBuf
  sndQueuelen := 1
  unsent := [synAckSegment iss syn.wndScale]
  unacked := []
  nrtx := 0
  persistBackoff := 0
  persistProbe := 0
  tmr := ticks

/-! ## Incoming segments -/

/-- A segment of an existing connection. -/
structure Segment where
  rst : Bool
  syn : Bool
  seqno : Nat
  /-- The acknowledgement number, if the ACK flag is set. -/
  ack : Option Nat
  /-- The scaled window, if it is newer than the known one. -/
  wnd : Option Nat
  /-- The MSS option. -/
  mss : Option Nat
  /-- It is the duplicate acknowledgement which asks to retransmit. -/
  thirdDupack : Bool
  /-- The congestion window after the segment was seen. -/
  cwnd : Nat
  /-- The payload which becomes deliverable, in pieces of at most 64 KiB. -/
  data : List PbufChain
  /-- The end of the stream is reached. -/
  fin : Bool

namespace Segment

/-- The payload which becomes deliverable. -/
def bytes (seg : Segment) : List UInt8 :=
  seg.data.flatMap PbufChain.bytes

/-- The sequence numbers which become deliverable. -/
def delivered (seg : Segment) : Nat :=
  seg.bytes.length + if seg.fin then 1 else 0

end Segment

/-- `state < CLOSE_WAIT`: no FIN was received yet. -/
def receives : TcpState → Bool
  | .closeWait | .closing | .lastAck | .timeWait => false
  | _ => true

/--
`tcp_free_acked_segments`: the segments which stay, the payload of the freed
ones and the number of their pbufs.
-/
def tcpFreeAckedSegments (ackno : Nat) :
    List TcpSeg → List TcpSeg × Nat × Nat
  | [] => ([], 0, 0)
  | seg :: rest =>
      if seg.seqno + seg.tcplen ≤ ackno then
        match tcpFreeAckedSegments ackno rest with
        | (kept, acked, clen) =>
            (kept, acked + seg.len, clen + seg.pbufClen)
      else
        (seg :: rest, 0, 0)

/-- The window update of `tcp_receive`. -/
def updateWindow (seg : Segment) (pcb : TcpPcb) : TcpPcb :=
  match seg.wnd with
  | none => pcb
  | some wnd =>
      { pcb with sndWnd := wnd, sndWndMax := max pcb.sndWndMax wnd }

/-- An acknowledgement of new data in `tcp_receive`. -/
def ackNewData (seg : Segment) (ackno : Nat) (pcb : TcpPcb) :
    TcpPcb × Nat :=
  let unacked := tcpFreeAckedSegments ackno pcb.unacked
  let unsent := tcpFreeAckedSegments ackno pcb.unsent
  let acked := unacked.2.1 + unsent.2.1
  ({ pcb with
      nrtx := 0
      lastack := ackno
      cwnd := seg.cwnd
      unacked := unacked.1
      unsent := unsent.1
      sndQueuelen := pcb.sndQueuelen - unacked.2.2 - unsent.2.2
      sndBuf := pcb.sndBuf + acked },
    acked)

/--
The acknowledgement part of `tcp_receive`: the control block and
`recv_acked`.
-/
def receiveAck (seg : Segment) (pcb : TcpPcb) : TcpPcb × Nat :=
  match seg.ack with
  | none => (pcb, 0)
  | some ackno =>
      let updated := updateWindow seg pcb
      if ackno ≤ updated.lastack then
        if seg.thirdDupack then
          ({ tcpRexmit updated with cwnd := seg.cwnd }, 0)
        else
          ({ updated with cwnd := seg.cwnd }, 0)
      else if ackno ≤ updated.sndNxt then
        ackNewData seg ackno updated
      else
        ({ updated with ackDelay := false, ackNow := false }, 0)

/-- What `tcp_receive` leaves to `tcp_input`. -/
structure Received where
  pcb : TcpPcb
  acked : Nat
  data : List PbufChain
  fin : Bool

/-- The data part of `tcp_receive`, in a state which still receives. -/
def receiveData (seg : Segment) (pcb : TcpPcb) : TcpPcb :=
  tcpAck
    (tcpUpdateRcvAnnWnd
      { pcb with
        rcvNxt := pcb.rcvNxt + seg.delivered
        rcvWnd := pcb.rcvWnd - seg.delivered }).1

/-- `tcp_receive`. -/
def tcpReceive (seg : Segment) (pcb : TcpPcb) : Received :=
  match receiveAck seg pcb with
  | (acknowledged, acked) =>
      if receives pcb.state && decide (0 < seg.delivered) then
        { pcb := receiveData seg acknowledged
          acked := acked
          data := seg.data
          fin := seg.fin }
      else
        { pcb := acknowledged, acked := acked, data := [], fin := false }

/-- What `tcp_process` leaves to `tcp_input`. -/
structure Processed where
  pcb : TcpPcb
  /-- `TF_RESET`. -/
  reset : Bool
  /-- `TF_CLOSED`. -/
  closed : Bool
  /-- `recv_acked`. -/
  acked : Nat
  /-- `recv_data`. -/
  data : List PbufChain
  /-- `TF_GOT_FIN`. -/
  fin : Bool

namespace Processed

/-- The segment only changed the control block. -/
def quiet (pcb : TcpPcb) : Processed :=
  { pcb := pcb, reset := false, closed := false, acked := 0, data := [],
    fin := false }

/-- The segment was received, in a state which moves on to `next`. -/
def received (result : Received) (next : TcpPcb) : Processed :=
  { pcb := next, reset := false, closed := false,
    acked := result.acked, data := result.data, fin := result.fin }

end Processed

/-- `ackno == snd_nxt && unsent == NULL`, after `tcp_receive`. -/
def acksAll (seg : Segment) (result : Received) : Bool :=
  decide (seg.ack = some result.pcb.sndNxt ∧ result.pcb.unsent = [])

/-- The move to TIME-WAIT, with `tcp_pcb_purge`. -/
def enterTimeWait (pcb : TcpPcb) : TcpPcb :=
  { pcb with
    state := .timeWait, ackNow := true, unsent := [], unacked := [] }

/-- `LWIP_TCP_CALC_INITIAL_CWND`. -/
def initialCwnd (mss : Nat) : Nat := min (4 * mss) (max (2 * mss) 4380)

/-- The states after the handshake in `tcp_process`. -/
def processSynchronized (seg : Segment) (pcb : TcpPcb) : Processed :=
  let result := tcpReceive seg pcb
  match pcb.state with
  | .established | .closeWait =>
      if result.fin then
        .received result
          { result.pcb with state := .closeWait, ackNow := true }
      else
        .received result result.pcb
  | .finWait1 =>
      if result.fin then
        if acksAll seg result then
          .received result (enterTimeWait result.pcb)
        else
          .received result
            { result.pcb with state := .closing, ackNow := true }
      else if acksAll seg result then
        .received result { result.pcb with state := .finWait2 }
      else
        .received result result.pcb
  | .finWait2 =>
      if result.fin then
        .received result (enterTimeWait result.pcb)
      else
        .received result result.pcb
  | .closing =>
      if acksAll seg result then
        .received result (enterTimeWait result.pcb)
      else
        .received result result.pcb
  | .lastAck =>
      { Processed.received result result.pcb with
        closed := acksAll seg result }
  | _ => .quiet pcb

/-- The state SYN-RCVD in `tcp_process`. -/
def processSynRcvd (seg : Segment) (pcb : TcpPcb) : Processed :=
  match seg.ack with
  | some ackno =>
      if pcb.lastack < ackno ∧ ackno ≤ pcb.sndNxt then
        let result := tcpReceive seg { pcb with state := .established }
        let grown :=
          { result.pcb with cwnd := initialCwnd result.pcb.mss }
        { Processed.received result
            (if result.fin then
              { grown with state := .closeWait, ackNow := true }
            else grown) with
          acked := result.acked - 1 }
      else
        .quiet pcb
  | none =>
      if seg.syn ∧ seg.seqno + 1 = pcb.rcvNxt then
        .quiet (tcpRexmit pcb)
      else
        .quiet pcb

/-- The segment size option is obeyed in every segment. -/
def parseopt (seg : Segment) (pcb : TcpPcb) : TcpPcb :=
  { pcb with
    mss := parseMss seg.mss pcb.mss
    mss_le := parseMss_le seg.mss pcb.mss_le }

/-- The fields which every processed segment refreshes. -/
def refreshPcb (ticks : Nat) (seg : Segment) (pcb : TcpPcb) : TcpPcb :=
  parseopt seg
    { pcb with
      tmr := if pcb.rxClosed then pcb.tmr else ticks
      persistProbe := 0 }

/-- `tcp_process`. -/
def tcpProcess (ticks : Nat) (seg : Segment) (pcb : TcpPcb) :
    Processed :=
  if seg.rst then
    if seg.seqno = pcb.rcvNxt then
      { Processed.quiet { pcb with ackDelay := false } with
        reset := true }
    else if pcb.rcvNxt ≤ seg.seqno ∧
        seg.seqno ≤ pcb.rcvNxt + pcb.rcvWnd then
      .quiet { pcb with ackNow := true }
    else
      .quiet pcb
  else if seg.syn && pcb.state != .synSent && pcb.state != .synRcvd then
    .quiet { pcb with ackNow := true }
  else
    match pcb.state with
    | .synRcvd => processSynRcvd seg (refreshPcb ticks seg pcb)
    | _ => processSynchronized seg (refreshPcb ticks seg pcb)

/--
The correction of the window for a FIN in `tcp_input`: the application will
not credit it.
-/
def creditFin (pcb : TcpPcb) : TcpPcb :=
  if pcb.rcvWnd ≠ pcb.tcpWndMax then
    { pcb with rcvWnd := pcb.rcvWnd + 1 }
  else
    pcb

/-- `tcp_timewait_input`. -/
def tcpTimewaitInput
    (ticks : Nat) (writes : List Bool) (seg : Segment) (pcb : TcpPcb) :
    TcpPcb :=
  if seg.rst then
    pcb
  else if seg.syn && decide (pcb.rcvNxt ≤ seg.seqno) &&
      decide (seg.seqno ≤ pcb.rcvNxt + pcb.rcvWnd) then
    pcb
  else
    let restarted :=
      if seg.fin && !seg.syn then { pcb with tmr := ticks } else pcb
    if seg.syn || seg.fin || !seg.data.isEmpty then
      (tcpOutput false writes { restarted with ackNow := true }).2.1
    else
      restarted

end Nsproxy.Lwip.TcpIn
