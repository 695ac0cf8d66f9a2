import Mathlib.Tactic.Common
import Nsproxy.Lwip.TcpIn

/-!
# The timers of a TCP connection

`tcp_slowtmr` and `tcp_fasttmr` of `tcp.c`, for one control block.

Whether a retransmission or a window probe is due at a tick depends on
measured round-trip times and is left to the environment.  The tests by which
the slow timer removes a control block are computed: a removal from the
active list is told to the application by the error callback, a removal from
the TIME-WAIT list is told to nobody.
-/

namespace Nsproxy.Lwip.TcpTimers

open Nsproxy.Lwip.Opts
open Nsproxy.Lwip.TcpOut
open Nsproxy.Lwip.Tcp
open Nsproxy.Lwip.TcpIn

/-- `TCP_MAXRTX`. -/
def tcpMaxrtx : Nat := 12

/-- `TCP_SLOW_INTERVAL`, in milliseconds. -/
def tcpSlowInterval : Nat := 500

/-- `TCP_FIN_WAIT_TIMEOUT`, in milliseconds. -/
def tcpFinWaitTimeout : Nat := 20000

/-- `TCP_SYN_RCVD_TIMEOUT`, in milliseconds. -/
def tcpSynRcvdTimeout : Nat := 20000

/-- `TCP_MSL`, in milliseconds. -/
def tcpMsl : Nat := 60000

/-- `tcp_ticks - pcb->tmr > timeout / TCP_SLOW_INTERVAL`. -/
def overdue (ticks : Nat) (pcb : TcpPcb) (timeout : Nat) : Bool :=
  decide (timeout / tcpSlowInterval < ticks - pcb.tmr)

/-- The tests which set `pcb_remove` for an active control block. -/
def slowtmrRemoves (ticks : Nat) (pcb : TcpPcb) : Bool :=
  decide (tcpMaxrtx ≤ pcb.nrtx) ||
    (decide (0 < pcb.persistBackoff) &&
      decide (tcpMaxrtx ≤ pcb.persistProbe)) ||
    (decide (pcb.state = .finWait2) && pcb.rxClosed &&
      overdue ticks pcb tcpFinWaitTimeout) ||
    (decide (pcb.state = .synRcvd) &&
      overdue ticks pcb tcpSynRcvdTimeout) ||
    (decide (pcb.state = .lastAck) && overdue ticks pcb (2 * tcpMsl))

/-- The test of the TIME-WAIT list. -/
def timeWaitExpires (ticks : Nat) (pcb : TcpPcb) : Bool :=
  decide (pcb.state = .timeWait) && overdue ticks pcb (2 * tcpMsl)

/-- `tcp_zero_window_probe`: only the counters remember a probe. -/
def tcpZeroWindowProbe (pcb : TcpPcb) : TcpPcb :=
  match pcb.unsent with
  | [] => pcb
  | seg :: _ =>
      { announce pcb with
        persistProbe :=
          if pcb.persistProbe < 0xff then pcb.persistProbe + 1
          else pcb.persistProbe
        sndNxt := max pcb.sndNxt (seg.seqno + 1) }

/-- The next slot of the persist timer. -/
def nextSlot (pcb : TcpPcb) : TcpPcb :=
  { pcb with persistBackoff := min (pcb.persistBackoff + 1) 7 }

/-- A persist timeout: probe a closed window, fill a small one. -/
def persistTimeout (writes : List Bool) (pcb : TcpPcb) :
    Except Fault TcpPcb :=
  if pcb.sndWnd = 0 then
    if writes.headD true then
      .ok (nextSlot (tcpZeroWindowProbe pcb))
    else
      .ok (tcpZeroWindowProbe pcb)
  else
    match tcpSplitUnsentSeg pcb (pcb.sndWnd % 65536) with
    | .error fault => .error fault
    | .ok next =>
        match tcpOutput false writes next with
        | (.ok, last, _) => .ok last
        | (_, last, _) => .ok (nextSlot last)

/-- A retransmission timeout. -/
def retransmit (writes : List Bool) (pcb : TcpPcb) : TcpPcb :=
  if pcb.unacked = [] ∧ pcb.unsent = [] then
    pcb
  else
    let prepared := { tcpRexmitRtoPrepare pcb with cwnd := pcb.mss }
    (tcpOutput false writes
      { prepared with
        nrtx := if pcb.nrtx < 0xff then pcb.nrtx + 1 else pcb.nrtx }).2.1

/--
The work of `tcp_slowtmr` on an active control block which stays, with
`tcp_output` at its end.  `due` says whether the running timer expires.
-/
def tcpSlowtmr (due : Bool) (writes : List Bool) (pcb : TcpPcb) :
    Except Fault TcpPcb :=
  if 0 < pcb.persistBackoff then
    if pcb.unacked ≠ [] ∨ pcb.unsent = [] then
      .error .assertion
    else if due then
      match persistTimeout writes pcb with
      | .error fault => .error fault
      | .ok next => .ok (tcpOutput false writes next).2.1
    else
      .ok (tcpOutput false writes pcb).2.1
  else if due then
    .ok (tcpOutput false writes (retransmit writes pcb)).2.1
  else
    .ok (tcpOutput false writes pcb).2.1

/-- `tcp_fasttmr`: a delayed acknowledgement is sent. -/
def tcpFasttmr (writes : List Bool) (pcb : TcpPcb) : TcpPcb :=
  if pcb.ackDelay then
    { (tcpOutput false writes { pcb with ackNow := true }).2.1 with
      ackDelay := false, ackNow := false }
  else
    pcb

end Nsproxy.Lwip.TcpTimers
