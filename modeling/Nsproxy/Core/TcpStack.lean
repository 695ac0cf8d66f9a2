import Mathlib.Tactic.Common
import Nsproxy.Lib.Transition
import Nsproxy.Lwip.Upkeep
import Nsproxy.Core.TcpEvents

/-!
# A forwarded connection on top of lwIP

The forwarder together with the functions of lwIP which call it: `tcp_input`
for each segment of the application, and the two timers.  What lwIP tells the
forwarder, in which order and how often, is computed from the segment and the
control block.

A run is followed while the forward exists.  When a callback destroys it, the
rest of `tcp_input` works for nobody and is left out.
-/

namespace Nsproxy.Core.TcpStack

open Nsproxy.Lib.Transition
open Nsproxy.Lwip.Opts
open Nsproxy.Lwip.Buffers
open Nsproxy.Lwip.TcpOut
open Nsproxy.Lwip.Tcp
open Nsproxy.Lwip.TcpIn
open Nsproxy.Lwip.TcpTimers
open Nsproxy.Skutils
open Nsproxy.Core.Memory
open Nsproxy.Core.TcpHandlers
open Nsproxy.Core.TcpOutcomes
open Nsproxy.Core.TcpPaths
open Nsproxy.Core.TcpEvents

/-! ## What lwIP does in turn -/

/-- One thing which lwIP does while it handles a segment or a tick. -/
inductive Chore where
  /-- It changes the control block. -/
  | work (change : TcpPcb → TcpPcb)
  /-- It calls back. -/
  | call (turn : Turn)
  /-- It frees the control block without a call. -/
  | remove

/-- Do one of these things. -/
def perform (world : World) : Chore → Except Fault World
  | .work change =>
      match world.pcb with
      | none => .error .useAfterFree
      | some pcb => .ok { world with pcb := some (change pcb) }
  | .call turn => step world turn
  | .remove => .ok { world with pcb := none }

/-- Do them in turn while the forward exists. -/
def performAll : List Chore → World → Except Fault World
  | [], world => .ok world
  | chore :: rest, world =>
      match perform world chore with
      | .error fault => .error fault
      | .ok next =>
          if next.fwd.isSome then performAll rest next else .ok next

/-- Answers of a kernel which is not asked. -/
def noAnswers : Answers :=
  { recvs := [], sends := [], shut := .ok, epoll := [], tun := [] }

/-- The error callback. -/
def callErr : Chore := .call ⟨.err, noAnswers⟩

/-! ## Segments -/

/-- The 16-bit pieces in which `tcp_input` reports acknowledged bytes. -/
def sentChunks (acked : Nat) : List UInt16 :=
  List.replicate (acked / 65535) 65535 ++
    if acked % 65535 = 0 then [] else [UInt16.ofNat (acked % 65535)]

/-- The calls which report acknowledged bytes. -/
def sentChores : List UInt16 → List Answers → List Chore
  | [], _ => []
  | len :: rest, answers =>
      .call ⟨.sent len, answers.headD noAnswers⟩ ::
        sentChores rest answers.tail

/-- The calls which deliver payload. -/
def receivedChores : List PbufChain → List Answers → List Chore
  | [], _ => []
  | chain :: rest, answers =>
      .call ⟨.received chain, answers.headD noAnswers⟩ ::
        receivedChores rest answers.tail

/-- The answers of the kernel to the callbacks of one segment. -/
structure Replies where
  sents : List Answers
  receipts : List Answers
  eof : Answers
  writes : List Bool

/-- `tcp_input_delayed_close`, when the connection is closed. -/
def delayedClose (pcb : TcpPcb) : List Chore :=
  if pcb.rxClosed then [.remove] else [callErr]

/-- The end of `tcp_input`: payload, the FIN, and what is to be sent. -/
def deliver (processed : Processed) (replies : Replies) : List Chore :=
  if processed.pcb.rxClosed ∧ processed.data ≠ [] then
    [callErr]
  else
    receivedChores processed.data replies.receipts ++
      ((if processed.fin then
        [.work creditFin, .call ⟨.received .null, replies.eof⟩]
      else []) ++
        [.work fun pcb => (tcpOutput false replies.writes pcb).2.1])

/-- What `tcp_input` does after `tcp_process`. -/
def afterProcess (processed : Processed) (replies : Replies) :
    List Chore :=
  if processed.reset then
    [callErr]
  else
    .work (fun _ => processed.pcb) ::
      (sentChores (sentChunks processed.acked) replies.sents ++
        if processed.closed then delayedClose processed.pcb
        else deliver processed replies)

/-- `tcp_input`, for a segment of the connection. -/
def tcpInput
    (ticks : Nat) (seg : Segment) (replies : Replies) (world : World) :
    Except Fault World :=
  match world.pcb with
  | none => .ok world
  | some pcb =>
      if pcb.state = .timeWait then
        performAll
          [.work (tcpTimewaitInput ticks replies.writes seg)] world
      else
        performAll (afterProcess (tcpProcess ticks seg pcb) replies) world

/-! ## Timers -/

/-- The assertions about the persist timer fail. -/
def persistAsserts (pcb : TcpPcb) : Bool :=
  decide (pcb.nrtx < tcpMaxrtx) && decide (0 < pcb.persistBackoff) &&
    (!pcb.unacked.isEmpty || pcb.unsent.isEmpty)

/-- `tcp_slowtmr`, for the control block of the connection. -/
def slowtmr
    (ticks : Nat) (due : Bool) (writes : List Bool) (world : World) :
    Except Fault World :=
  match world.pcb with
  | none => .ok world
  | some pcb =>
      if pcb.state = .timeWait then
        if timeWaitExpires ticks pcb then performAll [.remove] world
        else .ok world
      else if persistAsserts pcb then
        .error .assertion
      else if slowtmrRemoves ticks pcb then
        performAll [callErr] world
      else
        match tcpSlowtmr due writes pcb with
        | .error fault => .error fault
        | .ok next => performAll [.work fun _ => next] world

/-- `tcp_fasttmr`, which does not see a control block in TIME-WAIT. -/
def fasttmr (writes : List Bool) (world : World) : Except Fault World :=
  match world.pcb with
  | none => .ok world
  | some pcb =>
      if pcb.state = .timeWait then .ok world
      else performAll [.work (tcpFasttmr writes)] world

/-! ## The system -/

/-- A connection, and the clock of the slow timer. -/
structure Stack where
  world : World
  ticks : Nat

/-- What happens around a connection. -/
inductive Stimulus where
  /-- A segment of the application arrives. -/
  | segment (seg : Segment) (replies : Replies)
  | slowTick (due : Bool) (writes : List Bool)
  | fastTick (writes : List Bool)
  /-- An event which does not come from lwIP. -/
  | turn (turn : Turn)

/-- The event does not come from lwIP. -/
def ofForwarder : Event → Bool
  | .handshakeDone _ | .handshakeFailed | .proxyEvent _ | .gcTick => true
  | _ => false

/-- When something may happen: the forward exists, and its cause too. -/
def occurs (stack : Stack) : Stimulus → Prop
  | .segment _ _ =>
      stack.world.fwd.isSome = true ∧ stack.world.pcb.isSome = true
  | .slowTick _ _ | .fastTick _ => stack.world.fwd.isSome = true
  | .turn turn =>
      stack.world.fwd.isSome = true ∧ ofForwarder turn.event = true ∧
        enabled stack.world turn

instance (stack : Stack) :
    (stimulus : Stimulus) → Decidable (occurs stack stimulus)
  | .segment _ _ => inferInstanceAs (Decidable (_ ∧ _))
  | .slowTick _ _ => inferInstanceAs (Decidable (_ = true))
  | .fastTick _ => inferInstanceAs (Decidable (_ = true))
  | .turn turn =>
      inferInstanceAs
        (Decidable (_ ∧ _ ∧ enabled stack.world turn))

/-- The stack after something happened. -/
def respond (stack : Stack) : Stimulus → Except Fault Stack
  | .segment seg replies =>
      (tcpInput stack.ticks seg replies stack.world).map
        fun world => { stack with world := world }
  | .slowTick due writes =>
      (slowtmr (stack.ticks + 1) due writes stack.world).map
        fun world => { world := world, ticks := stack.ticks + 1 }
  | .fastTick writes =>
      (fasttmr writes stack.world).map
        fun world => { stack with world := world }
  | .turn turn =>
      (step stack.world turn).map
        fun world => { stack with world := world }

/-- The stack of a connection which was just accepted. -/
def accepted
    (syn : Syn) (iss ticks : Nat) (proxy : Proxy) (env : Env) :
    Stack where
  world := (newborn (tcpListenInput syn iss ticks) proxy env).world
  ticks := ticks

/-- The system of one forwarded connection on top of lwIP. -/
def stackSystem : System Fault Stack Stimulus where
  initial stack :=
    ∃ syn iss ticks proxy env,
      FreshProxy proxy ∧ stack = accepted syn iss ticks proxy env
  enabled := occurs
  step := respond

instance (stack : Stack) (stimulus : Stimulus) :
    Decidable (stackSystem.enabled stack stimulus) :=
  inferInstanceAs (Decidable (occurs stack stimulus))

/-! ## A sample connection -/

/-- A connection whose proxy is still connecting. -/
def sampleStack : Stack :=
  accepted ⟨100, 64240, some 1460, true, false⟩ 6510 0
    ⟨.handshake, 0#32⟩ ⟨false, true, false, [], [], []⟩

/-- A segment of the application. -/
def sampleSegment (ack : Nat) (data : List PbufChain) (fin : Bool) :
    Segment where
  rst := false
  syn := false
  seqno := 101
  ack := some ack
  wnd := some 64240
  mss := none
  thirdDupack := false
  cwnd := 4380
  data := data
  fin := fin

/-- The kernel answers alike to all callbacks of a segment. -/
def sampleReplies (answers : Answers) : Replies where
  sents := []
  receipts := [answers]
  eof := answers
  writes := []

/-- The connection to the proxy is not writable. -/
def notWritable : Answers := { noAnswers with sends := [.err .eagain] }

/-- The proxy ends its stream. -/
def proxyEnds : Stimulus :=
  .turn ⟨.proxyEvent epollin, { noAnswers with recvs := [.data []] }⟩

/-- The proxy connects, and the application acknowledges the SYN+ACK. -/
def sampleOpening : List Stimulus :=
  [.turn ⟨.handshakeDone 0, noAnswers⟩,
    .turn ⟨.proxyEvent (epollin ||| epollout), noAnswers⟩,
    .segment (sampleSegment 6511 [] false) (sampleReplies noAnswers)]

end Nsproxy.Core.TcpStack
