import Mathlib.Algebra.BigOperators.Group.List.Basic
import Mathlib.Tactic.Common
import Nsproxy.Lib.Transition
import Nsproxy.Lwip.TcpIn
import Nsproxy.Core.TcpPaths

/-!
# A forwarded connection as an event-driven system

The events of one `tcp_forward`: callbacks of lwIP, events of the proxy
connection, the idle timer, and what lwIP does to the control block between
its callbacks.  An event carries the answers which the kernel gives while it
is handled.

The environment is as free as lwIP and the kernel are.  lwIP calls back only
through a control block on which the callbacks are registered, reports no
more bytes than it has room for again in the send buffer, delivers nothing
after the end of the stream, and delivers nothing before the connection is
established.  The proxy reports events only while it exists.

The number of written bytes which lwIP has not acknowledged is the part of
`TCP_SND_BUF` missing from `snd_buf`.
-/

namespace Nsproxy.Core.TcpEvents

open Nsproxy.Lib.Handlers
open Nsproxy.Lib.Transition
open Nsproxy.Lwip.Opts
open Nsproxy.Lwip.Buffers
open Nsproxy.Lwip.TcpOut
open Nsproxy.Lwip.Tcp
open Nsproxy.Lwip.TcpIn
open Nsproxy.Skutils
open Nsproxy.Core.Memory
open Nsproxy.Core.TcpHandlers
open Nsproxy.Core.TcpOutcomes
open Nsproxy.Core.TcpPaths

/-! ## What a history tells -/

def receivedBy : Action → List UInt8
  | .lwipReceived chain => chain.bytes
  | _ => []

/-- All payload which lwIP delivered, in order. -/
def receivedBytes (trace : List Action) : List UInt8 :=
  trace.flatMap receivedBy

def endsReceipt : Action → Bool
  | .lwipReceived chain => chain.isNull
  | _ => false

/-- lwIP delivered the end of the application's stream. -/
def eofReceived (trace : List Action) : Bool := trace.any endsReceipt

def writtenBy : Action → List UInt8
  | .tcpWrite data _ .ok => data
  | _ => []

/-- All bytes which `tcp_write` took, in order. -/
def writtenBytes (trace : List Action) : List UInt8 :=
  trace.flatMap writtenBy

def reportedBy : Action → Nat
  | .lwipSent len => len
  | _ => 0

/-- The number of bytes reported by `tcp_lwip_sent`. -/
def reportedTotal (trace : List Action) : Nat :=
  (trace.map reportedBy).sum

@[simp]
theorem receivedBytes_append (front back : List Action) :
    receivedBytes (front ++ back) =
      receivedBytes front ++ receivedBytes back :=
  List.flatMap_append

@[simp]
theorem eofReceived_append (front back : List Action) :
    eofReceived (front ++ back) =
      (eofReceived front || eofReceived back) :=
  List.any_append

@[simp]
theorem writtenBytes_append (front back : List Action) :
    writtenBytes (front ++ back) =
      writtenBytes front ++ writtenBytes back :=
  List.flatMap_append

@[simp]
theorem reportedTotal_append (front back : List Action) :
    reportedTotal (front ++ back) =
      reportedTotal front + reportedTotal back := by
  simp [reportedTotal]

/-- A report leaves what was written as it was. -/
theorem writtenBytes_lwipSent (trace : List Action) (len : Nat) :
    writtenBytes (trace ++ [.lwipSent len]) = writtenBytes trace := by
  rw [writtenBytes_append]
  exact List.append_nil _

theorem reportedTotal_lwipSent (trace : List Action) (len : Nat) :
    reportedTotal (trace ++ [.lwipSent len]) =
      reportedTotal trace + len := by
  rw [reportedTotal_append]
  rfl

/-! ## Events -/

/-- What happens to a connection. -/
inductive Event where
  /-- lwIP works on the control block between two callbacks. -/
  | lwip (pcb : TcpPcb)
  | sent (len : UInt16)
  | received (chain : PbufChain)
  | err
  /-- The handshake with the proxy succeeds, with this interest so far. -/
  | handshakeDone (interest : EventMask)
  /-- The handshake with the proxy fails, which is an event of its own. -/
  | handshakeFailed
  | proxyEvent (events : EventMask)
  | gcTick

/-- The answers of the kernel while an event is handled. -/
structure Answers where
  recvs : List RecvAnswer
  sends : List SendAnswer
  shut : ShutAnswer
  epoll : List Bool
  tun : List (List Bool)

/-- An event with the answers given to it. -/
structure Turn where
  event : Event
  answers : Answers

/-- What lwIP may do to a control block between two callbacks. -/
structure LwipStep (before after : TcpPcb) : Prop where
  callbacks : after.callbacks = before.callbacks
  proxyestab : after.proxyestab = before.proxyestab
  sndBuf_le : before.sndBuf ≤ after.sndBuf
  sndBuf_bound : after.sndBuf ≤ tcpSndBuf
  queuelen :
    after.sndBuf = tcpSndBuf →
      after.sndQueuelen ≤ tcpSndQueuelen / 2

instance (before after : TcpPcb) : Decidable (LwipStep before after) :=
  decidable_of_iff
    (after.callbacks = before.callbacks ∧
      after.proxyestab = before.proxyestab ∧
      before.sndBuf ≤ after.sndBuf ∧ after.sndBuf ≤ tcpSndBuf ∧
      (after.sndBuf = tcpSndBuf →
        after.sndQueuelen ≤ tcpSndQueuelen / 2))
    ⟨fun ⟨callbacks, estab, le, bound, queuelen⟩ =>
        ⟨callbacks, estab, le, bound, queuelen⟩,
      fun ⟨callbacks, estab, le, bound, queuelen⟩ =>
        ⟨callbacks, estab, le, bound, queuelen⟩⟩

/-- lwIP can call back through this control block. -/
def callsBack (pcb : TcpPcb) : Bool := pcb.callbacks && pcb.proxyestab

/-- When the environment may produce an event. -/
def enabled (world : World) (turn : Turn) : Prop :=
  match turn.event with
  | .lwip next => ∃ pcb ∈ world.pcb, LwipStep pcb next
  | .sent len =>
      ∃ pcb ∈ world.pcb,
        callsBack pcb = true ∧
          reportedTotal world.env.trace + len.toNat +
              (tcpSndBuf - pcb.sndBuf) ≤
            (writtenBytes world.env.trace).length
  | .received _ =>
      ∃ pcb ∈ world.pcb,
        callsBack pcb = true ∧ eofReceived world.env.trace = false
  | .err => ∃ pcb ∈ world.pcb, pcb.callbacks = true
  | .handshakeDone _ | .handshakeFailed =>
      ∃ proxy ∈ world.proxy, proxy.phase = .handshake
  | .proxyEvent _ => ∃ proxy ∈ world.proxy, proxy.phase = .forwarding
  | .gcTick => world.listed = true

instance (world : World) : (turn : Turn) → Decidable (enabled world turn)
  | ⟨.lwip next, _⟩ =>
      inferInstanceAs (Decidable (∃ pcb ∈ world.pcb, LwipStep pcb next))
  | ⟨.sent len, _⟩ =>
      inferInstanceAs
        (Decidable
          (∃ pcb ∈ world.pcb,
            callsBack pcb = true ∧
              reportedTotal world.env.trace + len.toNat +
                  (tcpSndBuf - pcb.sndBuf) ≤
                (writtenBytes world.env.trace).length))
  | ⟨.received _, _⟩ =>
      inferInstanceAs
        (Decidable
          (∃ pcb ∈ world.pcb,
            callsBack pcb = true ∧
              eofReceived world.env.trace = false))
  | ⟨.err, _⟩ =>
      inferInstanceAs
        (Decidable (∃ pcb ∈ world.pcb, pcb.callbacks = true))
  | ⟨.handshakeDone _, _⟩ | ⟨.handshakeFailed, _⟩ =>
      inferInstanceAs
        (Decidable (∃ proxy ∈ world.proxy, proxy.phase = .handshake))
  | ⟨.proxyEvent _, _⟩ =>
      inferInstanceAs
        (Decidable (∃ proxy ∈ world.proxy, proxy.phase = .forwarding))
  | ⟨.gcTick, _⟩ =>
      inferInstanceAs (Decidable (world.listed = true))

/-- Change the proxy without a call of the forwarder. -/
def modifyProxy (change : Proxy → Proxy) : Routine Unit := do
  let proxy ← getProxy
  modify fun world => { world with proxy := some (change proxy) }

/-- The end of a handshake: the interest becomes readable and writable. -/
def startForwarding (accepted : Bool) (interest : EventMask) : Proxy where
  phase := .forwarding
  events :=
    skutilsEvctl accepted interest (epollout ||| epollin) .upd

/-- Handle an event, and tell lwIP what a callback returned. -/
def handle (turn : Turn) : Routine ErrT := do
  let answers := turn.answers
  match turn.event with
  | .lwip next =>
      modify fun world => { world with pcb := some next }
      return .ok
  | .sent len => tcpLwipSent len answers.recvs
  | .received chain =>
      tcpLwipReceived chain answers.sends answers.shut
  | .err =>
      modify fun world => { world with pcb := none }
      tcpLwipErr
      return .ok
  | .handshakeDone interest =>
      let accepted ← nextEpoll
      modifyProxy fun _ => startForwarding accepted interest
      return .ok
  | .handshakeFailed =>
      modifyProxy fun proxy => { proxy with phase := .failed }
      tcpProxyIoEvent (epollin ||| epollout ||| epollerr)
        answers.recvs answers.sends answers.shut
      return .ok
  | .proxyEvent events =>
      tcpProxyIoEvent events answers.recvs answers.sends answers.shut
      return .ok
  | .gcTick =>
      coreGcTmr
      return .ok

/-- `tcp_input` handles a segment of the connection during a callback. -/
def duringInput : Event → Bool
  | .sent _ | .received _ => true
  | _ => false

/-- The surroundings while an event is handled. -/
def withAnswers (turn : Turn) (env : Env) : Env :=
  { env with
    epoll := turn.answers.epoll
    tun := turn.answers.tun
    inputPcb := duringInput turn.event }

/-- The state in which an event is handled. -/
def prepare (turn : Turn) (world : World) : World :=
  { world with env := withAnswers turn world.env }

def step (world : World) (turn : Turn) : Except Fault World :=
  (handle turn (prepare turn world)).map Prod.snd

/-! ## The beginning of a connection -/

/-- A control block which lwIP has just created for a SYN. -/
structure FreshPcb (pcb : TcpPcb) : Prop where
  synRcvd : pcb.state = .synRcvd
  proxyestab : pcb.proxyestab = false
  sndBuf : pcb.sndBuf = tcpSndBuf
  queuelen : pcb.sndQueuelen ≤ tcpSndQueuelen / 2

/-- `tcp_listen_input` makes fresh control blocks. -/
theorem freshPcb_tcpListenInput (syn : Syn) (iss ticks : Nat) :
    FreshPcb (tcpListenInput syn iss ticks) := by
  refine ⟨rfl, rfl, rfl, ?_⟩
  show 1 ≤ tcpSndQueuelen / 2
  decide

/-- A proxy connection which was just created. -/
def FreshProxy (proxy : Proxy) : Prop :=
  proxy.phase = .handshake ∨
    ∃ accepted, proxy = startForwarding accepted 0#32

/-- The world in which `core_tcp_new` is called. -/
def unborn (pcb : TcpPcb) (env : Env) : World where
  fwd := none
  listed := false
  pcb := some pcb
  proxy := none
  env := { env with trace := [] }

/-- The connection which `core_tcp_new` makes. -/
def newborn (pcb : TcpPcb) (proxy : Proxy) (env : Env) : Live where
  fwd := { freshForward with proxy := true }
  pcb := { pcb with callbacks := true }
  proxy := proxy
  env := { env with trace := [] }

theorem coreTcpNew_some (pcb : TcpPcb) (proxy : Proxy) (env : Env) :
    coreTcpNew (some proxy) (unborn pcb env) =
      .ok (.ok, (newborn pcb proxy env).world) :=
  rfl

/-- The system of one forwarded connection. -/
def forwardSystem : System Fault World Turn where
  initial world :=
    ∃ pcb proxy env,
      FreshPcb pcb ∧ FreshProxy proxy ∧
        coreTcpNew (some proxy) (unborn pcb env) = .ok (.ok, world)
  enabled := enabled
  step := step

instance (world : World) (turn : Turn) :
    Decidable (forwardSystem.enabled world turn) :=
  inferInstanceAs (Decidable (enabled world turn))

/-- The first world of a connection is reachable. -/
theorem reachable_newborn
    {pcb : TcpPcb} {proxy : Proxy} (env : Env)
    (freshPcb : FreshPcb pcb) (freshProxy : FreshProxy proxy) :
    forwardSystem.Reachable (newborn pcb proxy env).world :=
  .start ⟨pcb, proxy, env, freshPcb, freshProxy,
    coreTcpNew_some pcb proxy env⟩

/-- A connection through the proxy, before its handshake. -/
def sampleStart : Live :=
  newborn
    (tcpListenInput ⟨100, 64240, some 1460, true, false⟩ 6510 0)
    ⟨.handshake, 0#32⟩ ⟨false, true, false, [], [], []⟩

theorem reachable_sampleStart :
    forwardSystem.Reachable sampleStart.world :=
  reachable_newborn _ (freshPcb_tcpListenInput _ _ _) (.inl rfl)

/-! ## One step of a live connection -/

/-- The connection with the answers to an event at hand. -/
def readied (live : Live) (turn : Turn) : Live :=
  { live with env := withAnswers turn live.env }

theorem prepare_live (live : Live) (turn : Turn) :
    prepare turn live.world = (readied live turn).world :=
  rfl

/-- The connection after the handshake succeeded. -/
def forwardingLive (live : Live) (interest : EventMask) : Live :=
  { live with
    proxy := startForwarding (live.env.epoll.headD true) interest
    env := { live.env with epoll := live.env.epoll.tail } }

/-- The connection after the handshake failed. -/
def failedLive (live : Live) : Live :=
  { live with proxy := { live.proxy with phase := .failed } }

/-- The idle timer after a tick. -/
def ticked (live : Live) : Live :=
  live.modifyFwd fun fwd => { fwd with gc := fwd.gc - 1 }

/-- The first effect of an event, before any handler acts. -/
def begun (live : Live) (turn : Turn) : Live :=
  match turn.event with
  | .lwip next => (readied live turn).modifyPcb fun _ => next
  | .sent len => acknowledged (readied live turn) len.toNat
  | .received chain => arrived (readied live turn) chain
  | .handshakeDone interest =>
      forwardingLive (readied live turn) interest
  | .handshakeFailed => failedLive (readied live turn)
  | .gcTick =>
      if live.fwd.gc = 0 then readied live turn
      else ticked (readied live turn)
  | .err | .proxyEvent _ => readied live turn

/-- What the error callback of lwIP does. -/
def errActions (live : Live) : List Action :=
  [.forwardDestroy { live.fwd with pcb := false } true,
    .proxyShutdown true (live.proxy.shutdown .ok true), .proxyPut]

/-- The world after the error callback of lwIP. -/
def lostPcb (live : Live) : World where
  fwd := none
  listed := false
  pcb := none
  proxy := none
  env := (live.record (errActions live)).env

theorem tcpLwipErr_live {live : Live} (linked : Linked live) :
    tcpLwipErr { live.world with pcb := none } =
      .ok ((), lostPcb live) := by
  cases live with
  | mk fwd pcb proxy env =>
      simp only [Linked] at linked
      simp [tcpLwipErr, modifyFwd, getFwd, alive, Live.world,
        tcpForwardDestroy, record, destroyPcb, destroyProxy, linked.1,
        callProxyShutdown, getProxy, callProxyPut, lostPcb, errActions,
        Live.record]

/-- The ways out of an event, handler by handler. -/
inductive Outcome (live : Live) : Turn → ErrT → World → Prop where
  | lwip :
      Outcome live ⟨.lwip next, answers⟩ .ok
        ({ readied live ⟨.lwip next, answers⟩ with pcb := next }).world
  | sent
      (outcome :
        LwipSent (readied live ⟨.sent len, answers⟩) len.toNat err
          world) :
      Outcome live ⟨.sent len, answers⟩ err world
  | received
      (outcome :
        LwipReceived (readied live ⟨.received chain, answers⟩) chain
          answers.shut err world) :
      Outcome live ⟨.received chain, answers⟩ err world
  | lost :
      Outcome live ⟨.err, answers⟩ .ok
        (lostPcb (readied live ⟨.err, answers⟩))
  | handshakeDone :
      Outcome live ⟨.handshakeDone interest, answers⟩ .ok
        (forwardingLive (readied live ⟨.handshakeDone interest, answers⟩)
          interest).world
  | handshakeFailed
      (outcome :
        IoEvent (failedLive (readied live ⟨.handshakeFailed, answers⟩))
          (epollin ||| epollout ||| epollerr) answers.shut err world) :
      Outcome live ⟨.handshakeFailed, answers⟩ .ok world
  | proxyEvent
      (outcome :
        IoEvent (readied live ⟨.proxyEvent events, answers⟩) events
          answers.shut err world) :
      Outcome live ⟨.proxyEvent events, answers⟩ .ok world
  | expired (zero : live.fwd.gc = 0) :
      Outcome live ⟨.gcTick, answers⟩ .ok
        (aborted (readied live ⟨.gcTick, answers⟩) true)
  | ticked (positive : live.fwd.gc ≠ 0) :
      Outcome live ⟨.gcTick, answers⟩ .ok
        (ticked (readied live ⟨.gcTick, answers⟩)).world

theorem coreGcTmr_live {live : Live} (linked : Linked live) :
    coreGcTmr live.world =
      if live.fwd.gc = 0 then .ok ((), aborted live true)
      else .ok ((), (ticked live).world) := by
  by_cases expired : live.fwd.gc = 0
  · rw [if_pos expired, ← tcpForwardDestroy_forced linked]
    simp [coreGcTmr, expired]
  · rw [if_neg expired]
    simp only [coreGcTmr, bind_apply, getFwd_live, ok_bind,
      if_neg expired]
    rfl

/-- Every event is handled in one of the listed ways, or asserts. -/
theorem handle_cases
    {live : Live} (linked : Linked live) (turn : Turn) :
    (∃ err world,
        handle turn (prepare turn live.world) = .ok (err, world) ∧
          Outcome live turn err world) ∨
      handle turn (prepare turn live.world) = .error .assertion := by
  have readyLinked : Linked (readied live turn) := linked
  rcases turn with ⟨event, answers⟩
  simp only [prepare_live]
  cases event with
  | lwip next =>
      exact .inl ⟨.ok, _, rfl, .lwip⟩
  | sent len =>
      rcases tcpLwipSent_cases readyLinked len answers.recvs with
        ⟨err, world, run, outcome⟩ | failed
      · exact .inl ⟨err, world, run, .sent outcome⟩
      · exact .inr failed
  | received chain =>
      rcases tcpLwipReceived_cases readyLinked chain answers.sends
          answers.shut with
        ⟨err, world, run, outcome⟩
      exact .inl ⟨err, world, run, .received outcome⟩
  | err =>
      refine .inl ⟨.ok, _, ?_, .lost⟩
      have lost := tcpLwipErr_live readyLinked
      simp only [handle, bind_apply, modify_apply, ok_bind, lost,
        pure_apply]
  | handshakeDone interest =>
      exact .inl ⟨.ok, _, rfl, .handshakeDone⟩
  | handshakeFailed =>
      have begin :
          modifyProxy (fun proxy => { proxy with phase := .failed })
              (readied live ⟨.handshakeFailed, answers⟩).world =
            .ok ((),
              (failedLive
                (readied live ⟨.handshakeFailed, answers⟩)).world) :=
        rfl
      have failedLinked :
          Linked
            (failedLive (readied live ⟨.handshakeFailed, answers⟩)) :=
        linked
      rcases tcpProxyIoEvent_cases failedLinked
          (epollin ||| epollout ||| epollerr) answers.recvs
          answers.sends answers.shut with
        ⟨err, world, run, outcome⟩ | failed
      · refine .inl ⟨.ok, world, ?_, .handshakeFailed outcome⟩
        simp only [handle, bind_apply, begin, ok_bind, run, pure_apply]
      · refine .inr ?_
        simp only [handle, bind_apply, begin, ok_bind, failed,
          error_bind]
  | proxyEvent events =>
      rcases tcpProxyIoEvent_cases readyLinked events answers.recvs
          answers.sends answers.shut with
        ⟨err, world, run, outcome⟩ | failed
      · refine .inl ⟨.ok, world, ?_, .proxyEvent outcome⟩
        simp only [handle, bind_apply, run, ok_bind, pure_apply]
      · refine .inr ?_
        simp only [handle, bind_apply, failed, error_bind]
  | gcTick =>
      have tick := coreGcTmr_live readyLinked
      by_cases expired : live.fwd.gc = 0
      · have now : (readied live ⟨.gcTick, answers⟩).fwd.gc = 0 :=
          expired
        refine .inl ⟨.ok, _, ?_, .expired expired⟩
        simp only [handle, bind_apply, tick, if_pos now, ok_bind,
          pure_apply]
      · have now : ¬ (readied live ⟨.gcTick, answers⟩).fwd.gc = 0 :=
          expired
        refine .inl ⟨.ok, _, ?_, .ticked expired⟩
        simp only [handle, bind_apply, tick, if_neg now, ok_bind,
          pure_apply]

/--
How an event leaves a live connection.  Only the callbacks of `tcp_input`
tell lwIP how they ended.
-/
inductive Handled (live : Live) (turn : Turn) : ErrT → World → Prop where
  | calledBack
      (input : duringInput turn.event = true)
      (ends : Ends (begun live turn) err world) :
      Handled live turn err world
  | ends
      (other : duringInput turn.event = false)
      (ends : Ends (begun live turn) err world) :
      Handled live turn .ok world
  | lost (event : turn.event = .err) :
      Handled live turn .ok (lostPcb (readied live turn))

theorem Outcome.handled
    {live : Live} {turn : Turn} {err : ErrT} {world : World}
    (outcome : Outcome live turn err world) :
    Handled live turn err world := by
  cases outcome with
  | lwip =>
      exact .ends rfl (.lives .refl)
  | sent outcome =>
      exact .calledBack rfl outcome.ends
  | received outcome =>
      exact .calledBack rfl outcome.ends
  | lost =>
      exact .lost rfl
  | handshakeDone =>
      exact .ends rfl (.lives .refl)
  | handshakeFailed outcome =>
      exact .ends rfl outcome.ends
  | proxyEvent outcome =>
      exact .ends rfl outcome.ends
  | @expired answers zero =>
      have began :
          begun live ⟨.gcTick, answers⟩ =
            readied live ⟨.gcTick, answers⟩ :=
        if_pos zero
      have ends :
          Ends (begun live ⟨.gcTick, answers⟩) .abrt
            (aborted (readied live ⟨.gcTick, answers⟩) true) := by
        rw [began]
        exact .aborts .refl
      exact .ends rfl ends
  | @ticked answers positive =>
      have began :
          begun live ⟨.gcTick, answers⟩ =
            TcpEvents.ticked (readied live ⟨.gcTick, answers⟩) :=
        if_neg positive
      have ends :
          Ends (begun live ⟨.gcTick, answers⟩) .ok
            (TcpEvents.ticked
              (readied live ⟨.gcTick, answers⟩)).world := by
        rw [began]
        exact .lives .refl
      exact .ends rfl ends

/-- A step is a handled event. -/
theorem step_ok
    {world next : World} {turn : Turn}
    (handled : step world turn = .ok next) :
    ∃ err, handle turn (prepare turn world) = .ok (err, next) := by
  unfold step at handled
  cases run : handle turn (prepare turn world) with
  | error fault =>
      rw [run] at handled
      cases handled
  | ok answer =>
      rw [run] at handled
      cases handled
      exact ⟨answer.1, rfl⟩

/-! ## Whole runs -/

/-- The forward is gone and nothing refers to it any more. -/
structure Dead (world : World) : Prop where
  fwd : world.fwd = none
  listed : world.listed = false
  proxy : world.proxy = none
  callbacks : ∀ pcb ∈ world.pcb, pcb.callbacks = false

theorem dead_aborted (live : Live) (force : Bool) :
    Dead (aborted live force) where
  fwd := rfl
  listed := rfl
  proxy := rfl
  callbacks := by
    intro pcb member
    cases member

theorem dead_lostPcb (live : Live) : Dead (lostPcb live) where
  fwd := rfl
  listed := rfl
  proxy := rfl
  callbacks := by
    intro pcb member
    cases member

theorem dead_closed (live : Live) : Dead (closed live) where
  fwd := rfl
  listed := rfl
  proxy := rfl
  callbacks := by
    intro pcb member
    exact tcpClose_callbacks member

/-- A dead forward only sees lwIP finish with the control block. -/
theorem dead_enabled
    {world : World} {turn : Turn} (dead : Dead world)
    (permitted : enabled world turn) :
    ∃ pcb next,
      turn.event = .lwip next ∧ pcb ∈ world.pcb ∧
        LwipStep pcb next := by
  rcases turn with ⟨event, answers⟩
  cases event with
  | lwip next =>
      rcases permitted with ⟨pcb, member, moved⟩
      exact ⟨pcb, next, rfl, member, moved⟩
  | sent len =>
      rcases permitted with ⟨pcb, member, calls, _⟩
      simp [callsBack, dead.callbacks pcb member] at calls
  | received chain =>
      rcases permitted with ⟨pcb, member, calls, _⟩
      simp [callsBack, dead.callbacks pcb member] at calls
  | err =>
      rcases permitted with ⟨pcb, member, registered⟩
      simp [dead.callbacks pcb member] at registered
  | handshakeDone interest =>
      rcases permitted with ⟨proxy, member, _⟩
      simp [dead.proxy] at member
  | handshakeFailed =>
      rcases permitted with ⟨proxy, member, _⟩
      simp [dead.proxy] at member
  | proxyEvent events =>
      rcases permitted with ⟨proxy, member, _⟩
      simp [dead.proxy] at member
  | gcTick =>
      have listed : world.listed = true := permitted
      simp [dead.listed] at listed

theorem handle_lwip
    {turn : Turn} {next : TcpPcb} (event : turn.event = .lwip next)
    (world : World) :
    handle turn (prepare turn world) =
      .ok (.ok, { prepare turn world with pcb := some next }) := by
  simp only [handle, event]
  rfl

theorem dead_step
    {world next : World} {turn : Turn} (dead : Dead world)
    (permitted : enabled world turn)
    (handled : step world turn = .ok next) :
    Dead next := by
  rcases dead_enabled dead permitted with
    ⟨pcb, after, event, member, moved⟩
  rcases step_ok handled with ⟨err, run⟩
  rw [handle_lwip event] at run
  cases run
  refine ⟨dead.fwd, dead.listed, dead.proxy, ?_⟩
  rintro last ⟨⟩
  rw [moved.callbacks]
  exact dead.callbacks pcb member

theorem begun_linked
    {live : Live} (linked : Linked live) (turn : Turn) :
    Linked (begun live turn) := by
  rcases turn with ⟨event, answers⟩
  cases event with
  | received chain =>
      exact arrived_linked linked chain
  | gcTick =>
      simp only [begun]
      split
      · exact linked
      · exact linked
  | lwip next => exact linked
  | sent len => exact linked
  | err => exact linked
  | handshakeDone interest => exact linked
  | handshakeFailed => exact linked
  | proxyEvent events => exact linked

/-- The world is a live connection with the invariant, or a dead one. -/
def LiveOrDead (invariant : Live → Prop) (world : World) : Prop :=
  (∃ live, world = live.world ∧ Linked live ∧ invariant live) ∨
    Dead world

/-- Where a handler leaves a connection, given an invariant. -/
theorem liveOrDead_of_ends
    {invariant : Live → Prop}
    (micro :
      ∀ live next, Micro live next → invariant live → invariant next)
    {live : Live} {err : ErrT} {world : World}
    (linked : Linked live) (begins : invariant live)
    (ends : Ends live err world) :
    LiveOrDead invariant world := by
  cases ends with
  | lives path =>
      exact .inl ⟨_, rfl, path.linked linked,
        path.preserves micro begins⟩
  | aborts path =>
      exact .inr (dead_aborted _ true)
  | refuses path room filled short written failed =>
      exact .inr (dead_aborted _ true)
  | closes path finished drained =>
      exact .inr (dead_closed _)

/-- Where an event leaves a connection, given an invariant. -/
theorem Handled.liveOrDead
    {invariant : Live → Prop}
    (micro :
      ∀ live next, Micro live next → invariant live → invariant next)
    {live : Live} {turn : Turn} {err : ErrT} {world : World}
    (linked : Linked live) (begins : invariant (begun live turn))
    (handled : Handled live turn err world) :
    LiveOrDead invariant world := by
  have began := begun_linked linked turn
  cases handled with
  | calledBack input ends =>
      exact liveOrDead_of_ends micro began begins ends
  | ends other ends =>
      exact liveOrDead_of_ends micro began begins ends
  | lost event =>
      exact .inr (dead_lostPcb _)

/--
The rule for invariants of live connections: they hold of every connection
which `core_tcp_new` makes, every event begins well, and every small step of
a handler preserves them.
-/
theorem live_invariant
    {invariant : Live → Prop}
    (newborns :
      ∀ pcb proxy env,
        FreshPcb pcb → FreshProxy proxy →
        invariant (newborn pcb proxy env))
    (begins :
      ∀ live turn,
        invariant live → enabled live.world turn →
        invariant (begun live turn))
    (micro :
      ∀ live next, Micro live next → invariant live → invariant next)
    {world : World} (reachable : forwardSystem.Reachable world) :
    LiveOrDead invariant world := by
  refine System.Reachable.invariant ?_ ?_ reachable
  · rintro source ⟨pcb, proxy, env, freshPcb, freshProxy, made⟩
    rw [coreTcpNew_some] at made
    cases made
    exact .inl ⟨_, rfl, ⟨rfl, rfl⟩,
      newborns pcb proxy env freshPcb freshProxy⟩
  · rintro source turn target (⟨live, rfl, linked, holds⟩ | dead)
      permitted handled
    · rcases step_ok handled with ⟨err, ran⟩
      rcases handle_cases linked turn with
        ⟨err, world, run, outcome⟩ | failed
      · rw [ran] at run
        cases run
        exact outcome.handled.liveOrDead micro linked
          (begins live turn holds permitted)
      · rw [ran] at failed
        cases failed
    · exact .inr (dead_step dead permitted handled)

/-- What the invariant says when the forward exists. -/
theorem LiveOrDead.of_fwd
    {invariant : Live → Prop} {world : World}
    (holds : LiveOrDead invariant world)
    {fwd : TcpForward} (present : world.fwd = some fwd) :
    ∃ live,
      world = live.world ∧ live.fwd = fwd ∧ Linked live ∧
        invariant live := by
  rcases holds with ⟨live, rfl, linked, holds⟩ | dead
  · have same : live.fwd = fwd := Option.some.inj present
    exact ⟨live, rfl, same, linked, holds⟩
  · rw [dead.fwd] at present
    cases present

end Nsproxy.Core.TcpEvents
