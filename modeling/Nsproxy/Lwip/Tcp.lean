import Mathlib.Tactic.Common
import Nsproxy.Lwip.TcpOut

/-!
# The application interface of a TCP connection

The functions of `tcp.c` by which the forwarder credits the receive window
and closes a connection, with the macro `tcp_ack`.

`tcp_close` returns `ERR_OK` in every state.  It resets the connection only
when payload was delivered whose receipt was not credited; elsewhere it sends
a FIN, unless one was sent before, and leaves the connection to lwIP.
-/

namespace Nsproxy.Lwip.Tcp

open Nsproxy.Lwip.Opts
open Nsproxy.Lwip.TcpOut

/-- `TCP_WND_UPDATE_THRESHOLD`. -/
def tcpWndUpdateThreshold : Nat := min (tcpWnd / 4) (tcpMss * 4)

/-- The macro `tcp_ack`: delay a first acknowledgement, not a second one. -/
def tcpAck (pcb : TcpPcb) : TcpPcb :=
  if pcb.ackDelay then
    { pcb with ackDelay := false, ackNow := true }
  else
    { pcb with ackDelay := true }

/--
`tcp_update_rcv_ann_wnd`: the new announced window and by how much the right
edge would move.
-/
def tcpUpdateRcvAnnWnd (pcb : TcpPcb) : TcpPcb × Nat :=
  let rightEdge := pcb.rcvNxt + pcb.rcvWnd
  if pcb.rcvAnnRightEdge + min (tcpWnd / 2) pcb.mss ≤ rightEdge then
    ({ pcb with rcvAnnWnd := pcb.rcvWnd },
      rightEdge - pcb.rcvAnnRightEdge)
  else if pcb.rcvAnnRightEdge < pcb.rcvNxt then
    ({ pcb with rcvAnnWnd := 0 }, 0)
  else
    ({ pcb with rcvAnnWnd := pcb.rcvAnnRightEdge - pcb.rcvNxt }, 0)

/-- The window which `tcp_recved` credits, at most the maximal one. -/
def creditWindow (pcb : TcpPcb) (len : Nat) : TcpPcb :=
  { pcb with rcvWnd := min (pcb.rcvWnd + len) pcb.tcpWndMax }

/-- `tcp_recved`. -/
def tcpRecved
    (inputPcb : Bool) (writes : List Bool) (pcb : TcpPcb) (len : Nat) :
    TcpPcb × List Emission :=
  match tcpUpdateRcvAnnWnd (creditWindow pcb len) with
  | (announced, inflation) =>
      if tcpWndUpdateThreshold ≤ inflation then
        (tcpOutput inputPcb writes { announced with ackNow := true }).2
      else
        (announced, [])

/-- `tcp_close_shutdown_fin`. -/
def tcpCloseShutdownFin
    (inputPcb : Bool) (writes : List Bool) (pcb : TcpPcb) :
    TcpPcb × List Emission :=
  match pcb.state with
  | .synRcvd | .established =>
      (tcpOutput inputPcb writes
        { tcpSendFin pcb with state := .finWait1 }).2
  | .closeWait =>
      (tcpOutput inputPcb writes
        { tcpSendFin pcb with state := .lastAck }).2
  | _ => (pcb, [])

/-- `tcp_shutdown(pcb, 0, 1)`. -/
def tcpShutdown
    (inputPcb : Bool) (writes : List Bool) (pcb : TcpPcb) :
    TcpPcb × List Emission :=
  match pcb.state with
  | .synRcvd | .established | .closeWait =>
      tcpCloseShutdownFin inputPcb writes pcb
  | _ => (pcb, [])

/-- Whether `tcp_close` resets instead of closing. -/
def closeResets (pcb : TcpPcb) : Bool :=
  (pcb.state = .established || pcb.state = .closeWait) &&
    pcb.rcvWnd != pcb.tcpWndMax

/--
`tcp_close`.  No control block is left when the connection is reset or was
never opened.
-/
def tcpClose
    (inputPcb : Bool) (writes : List Bool) (pcb : TcpPcb) :
    ErrT × Option TcpPcb × List Emission :=
  let closing := { pcb with rxClosed := true }
  if closeResets closing then
    (.ok, none, [.reset])
  else
    match pcb.state with
    | .closed | .listen | .synSent => (.ok, none, [])
    | _ =>
        match tcpCloseShutdownFin inputPcb writes closing with
        | (next, emitted) => (.ok, some next, emitted)

/-- What `tcp_abort` emits: a connection in TIME-WAIT is not reset. -/
def abortEmission (pcb : TcpPcb) : List Emission :=
  if pcb.state = .timeWait ∨ pcb.state = .closed then [] else [.reset]

/-! ## What the functions change -/

/-- The fields which crediting received bytes may change. -/
def Credits (before after : TcpPcb) : Prop :=
  ∃ unsent unacked sndNxt ackDelay ackNow persistBackoff persistProbe
      rcvWnd rcvAnnWnd rightEdge,
    after =
      { before with
        unsent := unsent
        unacked := unacked
        sndNxt := sndNxt
        ackDelay := ackDelay
        ackNow := ackNow
        persistBackoff := persistBackoff
        persistProbe := persistProbe
        rcvWnd := rcvWnd
        rcvAnnWnd := rcvAnnWnd
        rcvAnnRightEdge := rightEdge }

/-- `tcp_update_rcv_ann_wnd` only changes the announced window. -/
theorem tcpUpdateRcvAnnWnd_fst (pcb : TcpPcb) :
    ∃ announced,
      (tcpUpdateRcvAnnWnd pcb).1 =
        { pcb with rcvAnnWnd := announced } := by
  simp only [tcpUpdateRcvAnnWnd]
  split
  · exact ⟨_, rfl⟩
  · split
    · exact ⟨_, rfl⟩
    · exact ⟨_, rfl⟩

theorem credits_tcpRecved
    (inputPcb : Bool) (writes : List Bool) (pcb : TcpPcb) (len : Nat) :
    Credits pcb (tcpRecved inputPcb writes pcb len).1 ∧
      (tcpRecved inputPcb writes pcb len).1.rcvWnd =
        min (pcb.rcvWnd + len) pcb.tcpWndMax := by
  rcases tcpUpdateRcvAnnWnd_fst (creditWindow pcb len) with
    ⟨window, announced⟩
  simp only [tcpRecved]
  split
  · rcases emits_tcpOutput inputPcb writes
        { (tcpUpdateRcvAnnWnd (creditWindow pcb len)).1 with
          ackNow := true } with
      ⟨_, _, _, _, _, _, _, _, emitted⟩
    rw [emitted, announced]
    exact ⟨⟨_, _, _, _, _, _, _, _, _, _, rfl⟩, rfl⟩
  · rw [announced]
    exact ⟨⟨_, _, _, _, _, _, _, _, _, _, rfl⟩, rfl⟩

/-- The fields which closing the sending side may change. -/
def SendsFin (before after : TcpPcb) : Prop :=
  ∃ state unsent unacked sndNxt sndLbb sndQueuelen ackDelay ackNow
      persistBackoff persistProbe rightEdge,
    after =
      { before with
        state := state
        unsent := unsent
        unacked := unacked
        sndNxt := sndNxt
        sndLbb := sndLbb
        sndQueuelen := sndQueuelen
        ackDelay := ackDelay
        ackNow := ackNow
        persistBackoff := persistBackoff
        persistProbe := persistProbe
        rcvAnnRightEdge := rightEdge }

theorem tcpSendFin_eq (pcb : TcpPcb) :
    ∃ unsent sndLbb sndQueuelen,
      tcpSendFin pcb =
        { pcb with
          unsent := unsent
          sndLbb := sndLbb
          sndQueuelen := sndQueuelen } := by
  simp only [tcpSendFin]
  split
  · exact ⟨_, _, _, rfl⟩
  · split
    · exact ⟨_, _, _, rfl⟩
    · exact ⟨_, _, _, rfl⟩

theorem sendsFin_output
    (inputPcb : Bool) (writes : List Bool)
    (pcb : TcpPcb) (state : TcpState) :
    SendsFin pcb
      (tcpOutput inputPcb writes
        { tcpSendFin pcb with state := state }).2.1 := by
  rcases tcpSendFin_eq pcb with ⟨_, _, _, queued⟩
  rcases emits_tcpOutput inputPcb writes
      { tcpSendFin pcb with state := state } with
    ⟨_, _, _, _, _, _, _, _, emitted⟩
  rw [emitted, queued]
  exact ⟨_, _, _, _, _, _, _, _, _, _, _, rfl⟩

theorem sendsFin_tcpCloseShutdownFin
    (inputPcb : Bool) (writes : List Bool) (pcb : TcpPcb) :
    SendsFin pcb (tcpCloseShutdownFin inputPcb writes pcb).1 := by
  simp only [tcpCloseShutdownFin]
  split
  · exact sendsFin_output inputPcb writes pcb .finWait1
  · exact sendsFin_output inputPcb writes pcb .finWait1
  · exact sendsFin_output inputPcb writes pcb .lastAck
  · exact ⟨_, _, _, _, _, _, _, _, _, _, _, rfl⟩

theorem sendsFin_tcpShutdown
    (inputPcb : Bool) (writes : List Bool) (pcb : TcpPcb) :
    SendsFin pcb (tcpShutdown inputPcb writes pcb).1 := by
  simp only [tcpShutdown]
  split
  · exact sendsFin_tcpCloseShutdownFin inputPcb writes pcb
  · exact sendsFin_tcpCloseShutdownFin inputPcb writes pcb
  · exact sendsFin_tcpCloseShutdownFin inputPcb writes pcb
  · exact ⟨_, _, _, _, _, _, _, _, _, _, _, rfl⟩

/-- `tcp_close` never fails. -/
theorem tcpClose_ok
    (inputPcb : Bool) (writes : List Bool) (pcb : TcpPcb) :
    (tcpClose inputPcb writes pcb).1 = .ok := by
  simp only [tcpClose]
  split
  · rfl
  · split <;> rfl

/-- A control block which survives `tcp_close` keeps its callbacks. -/
theorem tcpClose_callbacks
    {inputPcb : Bool} {writes : List Bool} {pcb next : TcpPcb}
    (survives : (tcpClose inputPcb writes pcb).2.1 = some next) :
    next.callbacks = pcb.callbacks := by
  simp only [tcpClose] at survives
  split at survives
  · cases survives
  · split at survives
    · cases survives
    · cases survives
    · cases survives
    · rcases sendsFin_tcpCloseShutdownFin inputPcb writes
          { pcb with rxClosed := true } with
        ⟨_, _, _, _, _, _, _, _, _, _, _, closing⟩
      cases survives
      rw [closing]

end Nsproxy.Lwip.Tcp
