import Mathlib.Tactic.Common
import Nsproxy.Http
import Nsproxy.Core.TcpEvents

/-!
# The application sees a connection only when the tunnel exists

A forward through a SOCKS5 or HTTP proxy is the composition of three
machines: the handshake of the proxy client, the forwarder, and the patched
output function of lwIP, which is silent until the forwarder sets
`proxyestab`.

The composed system runs the handshake code on every event of the socket.
An event becomes a turn of the forwarder when the client calls `userev`, and
when the handshake succeeds; every run of the composition is a run of the
forwarder.

The forwarder sets `proxyestab` at the end of its first successful event.
When the handshake failed there is no such event: the send buffer of a
connection which was never established is empty, so the forwarder does call
the proxy, which answers that the connection was aborted.
-/

namespace Nsproxy.Core.Establish

open Nsproxy.Conf
open Nsproxy.Lib.Handlers
open Nsproxy.Lib.Transition
open Nsproxy.Lwip.Opts
open Nsproxy.Lwip.TcpOut
open Nsproxy.Lwip.Tcp
open Nsproxy.Lwip.TcpIn
open Nsproxy.Skutils
open Nsproxy.Socks
open Nsproxy.Http
open Nsproxy.Core.Memory
open Nsproxy.Core.TcpHandlers
open Nsproxy.Core.TcpOutcomes
open Nsproxy.Core.TcpPaths
open Nsproxy.Core.TcpEvents

/-! ## Silence before the connection is established -/

/-- Actions by which the application learns of the connection. -/
def speaks : Action → Bool
  | .emit _ | .established => true
  | _ => false

/-- The application was told nothing. -/
def Mute (trace : List Action) : Prop := trace.any speaks = false

theorem mute_append
    {front back : List Action} :
    Mute (front ++ back) ↔ Mute front ∧ Mute back := by
  simp [Mute, List.any_append]

/-- `tcp_output` does nothing before the connection is established. -/
theorem tcpOutput_unestablished
    (inputPcb : Bool) (writes : List Bool) {pcb : TcpPcb}
    (closed : pcb.proxyestab = false) :
    tcpOutput inputPcb writes pcb = (.ok, pcb, []) := by
  simp [tcpOutput, closed]

theorem tcpRecved_unestablished
    (inputPcb : Bool) (writes : List Bool) {pcb : TcpPcb}
    (closed : pcb.proxyestab = false) (len : Nat) :
    (tcpRecved inputPcb writes pcb len).2 = [] := by
  rcases tcpUpdateRcvAnnWnd_fst (creditWindow pcb len) with
    ⟨window, announced⟩
  simp only [tcpRecved]
  split
  · rw [tcpOutput_unestablished]
    rw [announced]
    exact closed
  · rfl

theorem tcpShutdown_unestablished
    (inputPcb : Bool) (writes : List Bool) {pcb : TcpPcb}
    (closed : pcb.proxyestab = false) :
    (tcpShutdown inputPcb writes pcb).2 = [] := by
  have quiet (state : TcpState) :
      (tcpOutput inputPcb writes
        { tcpSendFin pcb with state := state }).2.2 = [] := by
    rcases tcpSendFin_eq pcb with ⟨_, _, _, queued⟩
    rw [tcpOutput_unestablished]
    rw [queued]
    exact closed
  simp only [tcpShutdown, tcpCloseShutdownFin]
  split
  all_goals first
    | rfl
    | (split <;> first | rfl | exact quiet _)

/--
What holds of a forwarding connection: as long as it is not established the
application was told nothing.
-/
structure Opening (live : Live) : Prop where
  forwarding : live.proxy.phase = .forwarding
  mute : live.pcb.proxyestab = false → Mute live.env.trace

/-- An update after which the connection is as quiet as before. -/
theorem Opening.quiet
    {live next : Live} (holds : Opening live)
    (phase : next.proxy.phase = live.proxy.phase)
    (estab : next.pcb.proxyestab = live.pcb.proxyestab)
    {actions : List Action}
    (trace : next.env.trace = live.env.trace ++ actions)
    (mute : live.pcb.proxyestab = false → Mute actions) :
    Opening next where
  forwarding := phase.trans holds.forwarding
  mute := by
    intro closed
    rw [estab] at closed
    rw [trace]
    exact mute_append.mpr ⟨holds.mute closed, mute closed⟩

theorem proxyestab_output (live : Live) :
    live.output.pcb.proxyestab = live.pcb.proxyestab := by
  rcases emits_tcpOutput live.env.inputPcb (live.env.tun.headD [])
      live.pcb with
    ⟨_, _, _, _, _, _, _, _, emitted⟩
  show (tcpOutput live.env.inputPcb (live.env.tun.headD [])
    live.pcb).2.1.proxyestab = _
  rw [emitted]

theorem proxyestab_recved (live : Live) (len : Nat) :
    (live.recved len).pcb.proxyestab = live.pcb.proxyestab := by
  rcases (credits_tcpRecved live.env.inputPcb (live.env.tun.headD [])
      live.pcb len).1 with
    ⟨_, _, _, _, _, _, _, _, _, _, credited⟩
  show (tcpRecved live.env.inputPcb (live.env.tun.headD []) live.pcb
    len).1.proxyestab = _
  rw [credited]

theorem proxyestab_shutdown (live : Live) :
    live.shutdown.pcb.proxyestab = live.pcb.proxyestab := by
  rcases sendsFin_tcpShutdown live.env.inputPcb (live.env.tun.headD [])
      live.pcb with
    ⟨_, _, _, _, _, _, _, _, _, _, _, sent⟩
  show (tcpShutdown live.env.inputPcb (live.env.tun.headD [])
    live.pcb).1.proxyestab = _
  rw [sent]

theorem Opening.output {live : Live} (holds : Opening live) :
    Opening live.output := by
  refine holds.quiet rfl (proxyestab_output live) rfl ?_
  intro closed
  rw [tcpOutput_unestablished _ _ closed]
  rfl

theorem Opening.offered
    {live : Live} (holds : Opening live)
    {bytes : List UInt8} {next : TcpPcb}
    (written : tcpWrite live.pcb bytes = .ok (.ok, next)) :
    Opening (offered live bytes .ok next) := by
  have estab : next.proxyestab = live.pcb.proxyestab := by
    rcases tcpWrite_cases written with ⟨_, _, _, rfl⟩ | ⟨_, rfl⟩
    · rfl
    · rfl
  have trace :
      (TcpOutcomes.offered live bytes .ok next).env.trace =
        live.env.trace ++
          [.proxyRecv (.data bytes),
            .tcpWrite bytes live.pcb.tcpSndbuf .ok] := by
    simp [TcpOutcomes.offered, Live.record, Live.modifyPcb]
  exact holds.quiet rfl estab trace fun _ => rfl

theorem Opening.shutdown {live : Live} (holds : Opening live) :
    Opening live.shutdown := by
  refine holds.quiet rfl (proxyestab_shutdown live) rfl ?_
  intro closed
  rw [tcpShutdown_unestablished _ _ closed]
  rfl

theorem Opening.drain
    {live : Live} (holds : Opening live) (nsent : Nat) :
    Opening (drain live nsent) := by
  have sent :
      Opening
        ((live.record
          [.proxySend (firstPayload live.fwd.rcvq) (.ok nsent)]).modifyFwd
          fun fwd => { fwd with rcvq := fwd.rcvq.pbufFreeHeader nsent }) :=
    holds.quiet rfl rfl rfl fun _ => rfl
  refine sent.quiet rfl (proxyestab_recved _ nsent) rfl ?_
  intro closed
  rw [tcpRecved_unestablished _ _ closed]
  rfl

theorem Opening.micro
    {live next : Live} (step : Micro live next) (holds : Opening live) :
    Opening next := by
  cases step with
  | refresh =>
      exact holds.quiet rfl rfl (List.append_nil _).symm fun _ => rfl
  | evctl _ mask mode =>
      exact holds.quiet (Proxy.evctl_phase _ _ mask mode) rfl
        (List.append_nil _).symm fun _ => rfl
  | recvFailed _ errno =>
      exact holds.quiet rfl rfl rfl fun _ => rfl
  | feed room filled short written =>
      have offered := holds.offered written
      exact Opening.output ⟨offered.forwarding, offered.mute⟩
  | proxyEnded room =>
      exact holds.quiet rfl rfl rfl fun _ => rfl
  | shutdown finished =>
      exact holds.shutdown
  | sendFailed _ errno =>
      exact holds.quiet rfl rfl rfl fun _ => rfl
  | drain queued bounded =>
      exact holds.drain _
  | shutFailed setting errno =>
      exact holds.quiet rfl rfl rfl fun _ => rfl
  | eofShut setting empty due =>
      exact holds.quiet rfl rfl rfl fun _ => rfl
  | eofDisabled setting empty due =>
      exact holds.quiet rfl rfl (List.append_nil _).symm fun _ => rfl
  | ack =>
      refine holds.quiet rfl ?_ (List.append_nil _).symm fun _ => rfl
      show (tcpAck live.pcb).proxyestab = _
      unfold tcpAck
      split <;> rfl
  | establish =>
      refine ⟨holds.forwarding, ?_⟩
      intro closed
      cases closed
  | output =>
      exact holds.output

/-! ## Before the handshake is over -/

/-- A connection which waits for the handshake of its proxy. -/
structure Waiting (live : Live) : Prop where
  closed : live.pcb.proxyestab = false
  silent : live.env.trace = []
  open_ : live.fwd.proxyeof = false
  sndBuf : live.pcb.sndBuf = tcpSndBuf
  queuelen : live.pcb.sndQueuelen ≤ tcpSndQueuelen / 2

/-- Such a connection would read from the proxy. -/
theorem Waiting.mayRead {live : Live} (waiting : Waiting live) :
    mayRead live.fwd live.pcb = true := by
  have small := live.pcb.mss_le
  have room : live.pcb.mss < live.pcb.tcpSndbuf := by
    rw [TcpPcb.tcpSndbuf, waiting.sndBuf]
    exact Nat.lt_of_le_of_lt small (by decide)
  simp [TcpHandlers.mayRead, waiting.open_, room, waiting.queuelen]

/-- What holds between the events of a connection. -/
structure Sealed (live : Live) : Prop where
  unfailed : live.proxy.phase ≠ .failed
  waiting : live.proxy.phase = .handshake → Waiting live
  opening : live.proxy.phase = .forwarding → Opening live

theorem sealed_of_opening {live : Live} (opening : Opening live) :
    Sealed live := by
  have phase := opening.forwarding
  constructor
  · rw [phase]
    intro wrong
    cases wrong
  · rw [phase]
    intro wrong
    cases wrong
  · intro _
    exact opening

theorem sealed_newborn
    {pcb : TcpPcb} {proxy : Proxy} (env : Env)
    (fresh : FreshPcb pcb) (made : FreshProxy proxy) :
    Sealed (newborn pcb proxy env) := by
  rcases made with shaking | ⟨accepted, rfl⟩
  · constructor
    · rw [show (newborn pcb proxy env).proxy.phase = .handshake from
        shaking]
      intro wrong
      cases wrong
    · intro _
      exact ⟨fresh.proxyestab, rfl, rfl, fresh.sndBuf, fresh.queuelen⟩
    · intro forwarding
      exact ⟨forwarding, fun _ => rfl⟩
  · exact sealed_of_opening ⟨rfl, fun _ => rfl⟩

/-- No callback of `tcp_input` comes before the handshake is over. -/
theorem Sealed.opening_of_callsBack
    {live : Live} (holds : Sealed live)
    (calls : callsBack live.pcb = true) :
    Opening live := by
  simp only [callsBack, Bool.and_eq_true] at calls
  cases phase : live.proxy.phase with
  | failed =>
      exact absurd phase holds.unfailed
  | handshake =>
      have closed := (holds.waiting phase).closed
      rw [calls.2] at closed
      cases closed
  | forwarding =>
      exact holds.opening phase

/-- Where a handler leaves a forwarding connection. -/
theorem sealed_of_ends
    {live : Live} {err : ErrT} {world : World}
    (linked : Linked live) (opening : Opening live)
    (ends : Ends live err world) :
    LiveOrDead Sealed world := by
  have followed :=
    liveOrDead_of_ends (fun _ _ step before => Opening.micro step before)
      linked opening ends
  rcases followed with ⟨last, rfl, linked, opening⟩ | dead
  · exact .inl ⟨last, rfl, linked, sealed_of_opening opening⟩
  · exact .inr dead

/-! ## A failed handshake -/

/-- The connection when `recv` tells that the proxy has failed. -/
def refusal (live : Live) : Live :=
  (refreshed live).record [.proxyRecv (.err .econnaborted)]

/-- Reading from a failed proxy destroys the forward. -/
theorem tcpProxyInput_failed
    {live : Live} (linked : Linked live)
    (failed : live.proxy.phase = .failed)
    (room : mayRead live.fwd live.pcb = true)
    (answers : List RecvAnswer) :
    tcpProxyInput answers live.world =
      .ok (.abrt, aborted (refusal live) true) := by
  have readyLinked : Linked (refreshed live) := linked
  have readyRoom :
      mayRead (refreshed live).fwd (refreshed live).pcb = true :=
    room
  have read (answer : RecvAnswer) :
      (refreshed live).proxy.recv answer (refreshed live).pcb.mss =
        .err .econnaborted := by
    show live.proxy.recv answer live.pcb.mss = _
    simp [Proxy.recv, failed]
  have round (answer : RecvAnswer) :=
    tcpProxyInputRound_broken readyLinked (read answer) (by decide)
  have started :
      modifyFwd (fun fwd => { fwd with gc := nsproxyTcpIdleTimeout })
          live.world =
        .ok ((), (refreshed live).world) :=
    rfl
  have looped :
      tcpProxyInputLoop answers (refreshed live).world =
        .ok (some .abrt, aborted (refusal live) true) := by
    cases answers with
    | nil =>
        simp only [tcpProxyInputLoop, bind_apply, getFwd_live,
          getPcb_live, ok_bind, readyRoom, if_true, round, pure_apply]
        rfl
    | cons answer rest =>
        simp only [tcpProxyInputLoop, bind_apply, getFwd_live,
          getPcb_live, ok_bind, readyRoom, if_true, round, pure_apply]
        rfl
  simp only [tcpProxyInput, bind_apply, started, ok_bind, looped,
    pure_apply]

/-- The event by which the forwarder hears of a failed handshake. -/
theorem handle_handshakeFailed
    {live : Live} (linked : Linked live) (waiting : Waiting live)
    (answers : Answers) :
    handle ⟨.handshakeFailed, answers⟩
        (prepare ⟨.handshakeFailed, answers⟩ live.world) =
      .ok (.ok,
        aborted
          (refusal
            (failedLive (readied live ⟨.handshakeFailed, answers⟩)))
          true) := by
  have failedLinked :
      Linked (failedLive (readied live ⟨.handshakeFailed, answers⟩)) :=
    linked
  have input :=
    tcpProxyInput_failed failedLinked rfl waiting.mayRead answers.recvs
  have begin :
      modifyProxy (fun proxy => { proxy with phase := .failed })
          (readied live ⟨.handshakeFailed, answers⟩).world =
        .ok ((),
          (failedLive
            (readied live ⟨.handshakeFailed, answers⟩)).world) :=
    rfl
  have readable :
      (epollin ||| epollout ||| epollerr : EventMask).meets epollin =
        true := by
    decide
  have useful :
      (epollin ||| epollout ||| epollerr : EventMask).meets
          (epollin ||| epollout) =
        true := by
    decide
  have event :
      tcpProxyIoEvent (epollin ||| epollout ||| epollerr) answers.recvs
          answers.sends answers.shut
          (failedLive
            (readied live ⟨.handshakeFailed, answers⟩)).world =
        .ok ((),
          aborted
            (refusal
              (failedLive (readied live ⟨.handshakeFailed, answers⟩)))
            true) := by
    simp [tcpProxyIoEvent, useful, onReadable, readable, input]
  rw [prepare_live]
  simp only [handle, bind_apply, begin, ok_bind, event, pure_apply]

/-! ## Runs of the forwarder -/

/-- Every event leaves a connection sealed. -/
theorem sealed_step
    {live : Live} (linked : Linked live) (holds : Sealed live)
    {turn : Turn} (permitted : enabled live.world turn)
    {err : ErrT} {world : World}
    (ran : handle turn (prepare turn live.world) = .ok (err, world))
    (outcome : Outcome live turn err world) :
    LiveOrDead Sealed world := by
  cases outcome with
  | @lwip next answers =>
      rcases permitted with ⟨pcb, ⟨⟩, moved⟩
      refine .inl ⟨_, rfl, linked, holds.unfailed, ?_, ?_⟩
      · intro shaking
        have waiting := holds.waiting shaking
        have full : next.sndBuf = tcpSndBuf :=
          Nat.le_antisymm moved.sndBuf_bound
            (waiting.sndBuf ▸ moved.sndBuf_le)
        exact ⟨moved.proxyestab.trans waiting.closed, waiting.silent,
          waiting.open_, full, moved.queuelen full⟩
      · intro forwarding
        refine ⟨forwarding, ?_⟩
        intro closed
        exact (holds.opening forwarding).mute
          (moved.proxyestab.symm.trans closed)
  | @sent len answers _ _ outcome =>
      rcases permitted with ⟨pcb, ⟨⟩, calls, _⟩
      have opening := holds.opening_of_callsBack calls
      have begun :
          Opening
            (acknowledged (readied live ⟨.sent len, answers⟩)
              len.toNat) :=
        opening.quiet rfl rfl rfl fun _ => rfl
      exact sealed_of_ends (begun_linked linked ⟨.sent len, answers⟩)
        begun outcome.ends
  | @received chain answers _ _ outcome =>
      rcases permitted with ⟨pcb, ⟨⟩, calls, _⟩
      have opening := holds.opening_of_callsBack calls
      have begun :
          Opening
            (arrived (readied live ⟨.received chain, answers⟩)
              chain) :=
        opening.quiet rfl rfl rfl fun _ => rfl
      exact sealed_of_ends
        (begun_linked linked ⟨.received chain, answers⟩) begun
        outcome.ends
  | lost =>
      exact .inr (dead_lostPcb _)
  | handshakeDone =>
      rcases permitted with ⟨proxy, ⟨⟩, shaking⟩
      have silent := (holds.waiting shaking).silent
      refine .inl ⟨_, rfl, linked, sealed_of_opening ⟨rfl, ?_⟩⟩
      intro _
      show Mute live.env.trace
      rw [silent]
      rfl
  | @handshakeFailed answers _ _ outcome =>
      rcases permitted with ⟨proxy, ⟨⟩, shaking⟩
      rw [handle_handshakeFailed linked (holds.waiting shaking)] at ran
      cases ran
      exact .inr (dead_aborted _ true)
  | @proxyEvent events answers _ _ outcome =>
      rcases permitted with ⟨proxy, ⟨⟩, forwarding⟩
      have opening := holds.opening forwarding
      have begun :
          Opening (readied live ⟨.proxyEvent events, answers⟩) :=
        ⟨opening.forwarding, opening.mute⟩
      exact sealed_of_ends
        (begun_linked linked ⟨.proxyEvent events, answers⟩) begun
        outcome.ends
  | expired zero =>
      exact .inr (dead_aborted _ true)
  | ticked positive =>
      refine .inl ⟨_, rfl, linked, holds.unfailed, ?_, ?_⟩
      · intro shaking
        have waiting := holds.waiting shaking
        exact ⟨waiting.closed, waiting.silent, waiting.open_,
          waiting.sndBuf, waiting.queuelen⟩
      · intro forwarding
        have opening := holds.opening forwarding
        exact ⟨opening.forwarding, opening.mute⟩

/-- Every living connection is sealed. -/
theorem reachable_sealed
    {world : World} (reachable : forwardSystem.Reachable world) :
    LiveOrDead Sealed world := by
  refine System.Reachable.invariant ?_ ?_ reachable
  · rintro source ⟨pcb, proxy, env, freshPcb, freshProxy, made⟩
    rw [coreTcpNew_some] at made
    cases made
    exact .inl ⟨_, rfl, ⟨rfl, rfl⟩,
      sealed_newborn env freshPcb freshProxy⟩
  · rintro source turn target (⟨live, rfl, linked, holds⟩ | dead)
      permitted handled
    · rcases step_ok handled with ⟨err, ran⟩
      rcases handle_cases linked turn with
        ⟨err, world, run, outcome⟩ | failed
      · rw [ran] at run
        cases run
        exact sealed_step linked holds permitted ran outcome
      · rw [ran] at failed
        cases failed
    · exact .inr (dead_step dead permitted handled)

/-- The phase of a surviving proxy is the one in which its event began. -/
theorem phase_of_handled
    {live : Live} {turn : Turn} {err : ErrT} {world : World}
    (handled : Handled live turn err world)
    {proxy : Proxy} (member : proxy ∈ world.proxy) :
    proxy.phase = (begun live turn).proxy.phase := by
  have kept
      {err : ErrT} {world : World} (ends : Ends (begun live turn) err world)
      (member : proxy ∈ world.proxy) :
      proxy.phase = (begun live turn).proxy.phase := by
    cases ends with
    | lives path =>
        cases member
        exact path.phase
    | aborts path =>
        cases member
    | refuses path room filled short written failed =>
        cases member
    | closes path finished drained =>
        cases member
  cases handled with
  | calledBack input ends =>
      exact kept ends member
  | ends other ends =>
      exact kept ends member
  | lost event =>
      cases member

/-! ## The composition -/

/-- The client of a proxied connection. -/
inductive Connection where
  | socks (self : ProxySocks)
  | http (self : ProxyHttp)
deriving DecidableEq

namespace Connection

def phase : Connection → Phase
  | .socks self => self.phase.toPhase
  | .http self => self.phase.toPhase

/-- The events which the client is interested in. -/
def interest : Connection → EventMask
  | .socks self => self.events
  | .http self => self.events

/-- `socks_epcb_events` or `http_epcb_events`. -/
def epcbEvents
    (conf : Nspconf) (inet : Inet) (answers : HandshakeAnswers)
    (events : EventMask) :
    Connection → Except Fault (Connection × Option EventMask)
  | .socks self =>
      (socksEpcbEvents conf inet answers events self).map
        fun result => (.socks result.1, result.2)
  | .http self =>
      .ok
        (.http (httpEpcbEvents conf answers events self).1,
          (httpEpcbEvents conf answers events self).2)

end Connection

/-- A forwarded connection with the client which shakes hands for it. -/
structure Tunnel where
  connection : Connection
  world : World

/-- What happens to a tunnel. -/
inductive TunnelEvent where
  /-- The kernel reports events of the socket. -/
  | epoll
      (events : EventMask) (handshake : HandshakeAnswers)
      (answers : Answers)
  /-- An event of lwIP or of the idle timer. -/
  | other (turn : Turn)

/-- The events of the forwarder which come from the socket. -/
def ofSocket : Event → Bool
  | .handshakeDone _ | .handshakeFailed | .proxyEvent _ => true
  | _ => false

/-- What an event of the socket is to the forwarder. -/
def turnOf
    (connection next : Connection) (handshake : HandshakeAnswers)
    (answers : Answers) (told : Option EventMask) : Option Turn :=
  match told, next.phase with
  | some events, .forwarding => some ⟨.proxyEvent events, answers⟩
  | some _, _ => some ⟨.handshakeFailed, answers⟩
  | none, .forwarding =>
      some
        ⟨.handshakeDone connection.interest,
          { answers with epoll := [handshake.epoll] }⟩
  | none, _ => none

/-- Handle an event of the tunnel. -/
def tunnelStep (conf : Nspconf) (inet : Inet) (tunnel : Tunnel) :
    TunnelEvent → Except Fault Tunnel
  | .epoll events handshake answers =>
      match tunnel.connection.epcbEvents conf inet handshake events with
      | .error fault => .error fault
      | .ok (next, told) =>
          match turnOf tunnel.connection next handshake answers told with
          | none => .ok { tunnel with connection := next }
          | some turn => (step tunnel.world turn).map (Tunnel.mk next)
  | .other turn =>
      (step tunnel.world turn).map (Tunnel.mk tunnel.connection)

/-- When an event of the tunnel may occur. -/
def tunnelEnabled (tunnel : Tunnel) : TunnelEvent → Prop
  | .epoll _ _ _ => tunnel.world.proxy.isSome = true
  | .other turn =>
      ofSocket turn.event = false ∧ enabled tunnel.world turn

instance (tunnel : Tunnel) :
    (event : TunnelEvent) → Decidable (tunnelEnabled tunnel event)
  | .epoll _ _ _ =>
      inferInstanceAs (Decidable (tunnel.world.proxy.isSome = true))
  | .other turn =>
      inferInstanceAs
        (Decidable
          (ofSocket turn.event = false ∧ enabled tunnel.world turn))

/-- A client which `socks_tcp_create` or `http_tcp_create` returned. -/
inductive Created : Connection → Prop where
  | socks (made : socksTcpCreate addr port true accepted = some self) :
      Created (.socks self)
  | http (made : httpTcpCreate addr port true accepted = some self) :
      Created (.http self)

/-- The system of one connection through a SOCKS5 or HTTP proxy. -/
def tunnelSystem (conf : Nspconf) (inet : Inet) :
    System Fault Tunnel TunnelEvent where
  initial tunnel :=
    ∃ pcb env,
      FreshPcb pcb ∧ Created tunnel.connection ∧
        coreTcpNew (some ⟨.handshake, tunnel.connection.interest⟩)
            (unborn pcb env) =
          .ok (.ok, tunnel.world)
  enabled := tunnelEnabled
  step := tunnelStep conf inet

instance (conf : Nspconf) (inet : Inet)
    (tunnel : Tunnel) (event : TunnelEvent) :
    Decidable ((tunnelSystem conf inet).enabled tunnel event) :=
  inferInstanceAs (Decidable (tunnelEnabled tunnel event))

/-! ## The composition runs the forwarder -/

section Composition

variable {conf : Nspconf} {inet : Inet}

/-- What an event of the socket does during the handshake. -/
inductive Shakes : Connection × Option EventMask → Prop where
  | shakes (phase : next.phase = .handshake) : Shakes (next, none)
  | forwards (phase : next.phase = .forwarding) : Shakes (next, none)
  | fails (phase : next.phase = .failed) :
      Shakes (next, some failedEvents)

theorem epcbEvents_shaking
    (conf : Nspconf) (inet : Inet) {connection : Connection}
    (shaking : connection.phase = .handshake)
    (handshake : HandshakeAnswers) (events : EventMask) :
    ∃ result,
      connection.epcbEvents conf inet handshake events = .ok result ∧
        Shakes result := by
  cases connection with
  | socks self =>
      rcases advances_socksEpcbEvents conf inet handshake events
          shaking with
        ⟨result, ran, advanced⟩
      refine ⟨(.socks result.1, result.2), ?_, ?_⟩
      · simp only [Connection.epcbEvents, ran]
        rfl
      · cases advanced with
        | shakes phase type => exact .shakes phase
        | forwards phase type relay =>
            refine .forwards ?_
            simp [Connection.phase, phase, SocksPhase.toPhase]
        | fails phase type =>
            refine .fails ?_
            simp [Connection.phase, phase, SocksPhase.toPhase]
  | http self =>
      refine ⟨_, rfl, ?_⟩
      have advanced :=
        advances_httpEpcbEvents conf handshake events shaking
      generalize httpEpcbEvents conf handshake events self = result
        at advanced
      cases advanced with
      | shakes phase => exact .shakes phase
      | forwards phase =>
          refine .forwards ?_
          simp [Connection.phase, phase, HttpPhase.toPhase]
      | fails phase =>
          refine .fails ?_
          simp [Connection.phase, phase, HttpPhase.toPhase]

theorem epcbEvents_forwarding
    {connection : Connection}
    (forwarding : connection.phase = .forwarding)
    (handshake : HandshakeAnswers) (events : EventMask) :
    connection.epcbEvents conf inet handshake events =
      .ok (connection, some events) := by
  cases connection with
  | socks self =>
      have phase : self.phase = .forwarding := by
        cases same : self.phase <;>
          simp [Connection.phase, SocksPhase.toPhase, same]
            at forwarding ⊢
      simp only [Connection.epcbEvents, socksEpcbEvents, phase]
      rfl
  | http self =>
      have phase : self.phase = .forwarding := by
        cases same : self.phase <;>
          simp [Connection.phase, HttpPhase.toPhase, same]
            at forwarding ⊢
      simp [Connection.epcbEvents, httpEpcbEvents, phase]

/-- How an event of the tunnel is a turn of the forwarder. -/
inductive Runs (tunnel : Tunnel) : TunnelEvent → Tunnel → Prop where
  | shakes
      (before : tunnel.connection.phase = .handshake)
      (after : next.phase = .handshake) :
      Runs tunnel (.epoll events handshake answers)
        { tunnel with connection := next }
  | forwards
      (before : tunnel.connection.phase = .handshake)
      (after : next.phase = .forwarding)
      (turn :
        step tunnel.world
            ⟨.handshakeDone tunnel.connection.interest,
              { answers with epoll := [handshake.epoll] }⟩ =
          .ok world) :
      Runs tunnel (.epoll events handshake answers) ⟨next, world⟩
  | fails
      (before : tunnel.connection.phase = .handshake)
      (after : next.phase = .failed)
      (turn : step tunnel.world ⟨.handshakeFailed, answers⟩ = .ok world) :
      Runs tunnel (.epoll events handshake answers) ⟨next, world⟩
  | event
      (before : tunnel.connection.phase = .forwarding)
      (turn :
        step tunnel.world ⟨.proxyEvent events, answers⟩ = .ok world) :
      Runs tunnel (.epoll events handshake answers)
        ⟨tunnel.connection, world⟩
  | other (turn : step tunnel.world input = .ok world) :
      Runs tunnel (.other input) ⟨tunnel.connection, world⟩

theorem map_ok
    {Result Next : Type} {change : Result → Next}
    {run : Except Fault Result} {next : Next}
    (mapped : run.map change = .ok next) :
    ∃ result, run = .ok result ∧ change result = next := by
  cases run with
  | error fault =>
      cases mapped
  | ok result =>
      cases mapped
      exact ⟨result, rfl, rfl⟩

/-- A client which has not failed lets the forwarder take a turn. -/
theorem runs_of_step
    {tunnel next : Tunnel} {event : TunnelEvent}
    (unfailed : tunnel.connection.phase ≠ .failed ∨
      tunnel.world.proxy = none)
    (permitted : tunnelEnabled tunnel event)
    (handled : tunnelStep conf inet tunnel event = .ok next) :
    Runs tunnel event next := by
  cases event with
  | other turn =>
      rcases map_ok handled with ⟨world, ran, rfl⟩
      exact .other ran
  | epoll events handshake answers =>
      have healthy : tunnel.connection.phase ≠ .failed := by
        rcases unfailed with healthy | gone
        · exact healthy
        · simp [tunnelEnabled, gone] at permitted
      cases phase : tunnel.connection.phase with
      | failed =>
          exact absurd phase healthy
      | forwarding =>
          simp only [tunnelStep, epcbEvents_forwarding phase, turnOf,
            phase] at handled
          rcases map_ok handled with ⟨world, ran, rfl⟩
          exact .event phase ran
      | handshake =>
          rcases epcbEvents_shaking conf inet phase handshake events with
            ⟨result, ran, shaken⟩
          simp only [tunnelStep, ran] at handled
          cases shaken with
          | shakes after =>
              simp only [turnOf, after] at handled
              cases handled
              exact .shakes phase after
          | forwards after =>
              simp only [turnOf, after] at handled
              rcases map_ok handled with ⟨world, ran, rfl⟩
              exact .forwards phase after ran
          | fails after =>
              simp only [turnOf, after] at handled
              rcases map_ok handled with ⟨world, ran, rfl⟩
              exact .fails phase after ran

/-- The forwarder knows the phase of the client. -/
def Coupled (tunnel : Tunnel) : Prop :=
  ∀ proxy ∈ tunnel.world.proxy,
    proxy.phase = tunnel.connection.phase

/-- The tunnel is a run of the forwarder which knows its client. -/
structure Refines (tunnel : Tunnel) : Prop where
  reachable : forwardSystem.Reachable tunnel.world
  coupled : Coupled tunnel

/-- A turn of the socket is allowed in the phase of the client. -/
theorem Coupled.allowed
    {tunnel : Tunnel} (coupled : Coupled tunnel)
    {events : EventMask} {handshake : HandshakeAnswers}
    {answers : Answers}
    (permitted : tunnelEnabled tunnel (.epoll events handshake answers))
    {phase : Phase} (known : tunnel.connection.phase = phase) :
    ∃ proxy ∈ tunnel.world.proxy, proxy.phase = phase := by
  rcases Option.isSome_iff_exists.mp permitted with ⟨proxy, present⟩
  exact ⟨proxy, present, (coupled proxy present).trans known⟩

/-- A client of a living forward has not failed. -/
theorem unfailed_of_coupled
    {tunnel : Tunnel} (coupled : Coupled tunnel)
    (holds : LiveOrDead Sealed tunnel.world) :
    tunnel.connection.phase ≠ .failed ∨ tunnel.world.proxy = none := by
  rcases holds with ⟨live, same, linked, holds⟩ | dead
  · have phase := coupled live.proxy (by rw [same]; rfl)
    exact .inl (phase ▸ holds.unfailed)
  · exact .inr dead.proxy

/-- What a turn of the forwarder does to the phase of the proxy. -/
theorem phase_of_step
    {world next : World} {turn : Turn}
    (holds : LiveOrDead Sealed world)
    (handled : step world turn = .ok next)
    (permitted : enabled world turn)
    {proxy : Proxy} (member : proxy ∈ next.proxy) :
    ∃ live,
      world = live.world ∧
        proxy.phase = (begun live turn).proxy.phase := by
  rcases holds with ⟨live, rfl, linked, holds⟩ | dead
  · rcases step_ok handled with ⟨err, ran⟩
    rcases handle_cases linked turn with
      ⟨err, world, run, outcome⟩ | failed
    · rw [ran] at run
      cases run
      exact ⟨live, rfl, phase_of_handled outcome.handled member⟩
    · rw [ran] at failed
      cases failed
  · have gone := (dead_step dead permitted handled).proxy
    rw [gone] at member
    cases member

theorem begun_phase
    (live : Live) {turn : Turn} (other : ofSocket turn.event = false) :
    (begun live turn).proxy.phase = live.proxy.phase := by
  rcases turn with ⟨event, answers⟩
  cases event with
  | handshakeDone interest => cases other
  | handshakeFailed => cases other
  | gcTick =>
      simp only [begun]
      split <;> rfl
  | lwip next => rfl
  | sent len => rfl
  | received chain => rfl
  | err => rfl
  | proxyEvent events => rfl

/-- An allowed turn of the forwarder stays on its runs. -/
theorem reachable_turn
    {world next : World} {turn : Turn}
    (reachable : forwardSystem.Reachable world)
    (handled : step world turn = .ok next)
    (permitted : enabled world turn) :
    forwardSystem.Reachable next :=
  .next reachable permitted handled

/-- Every event of a tunnel is a turn of the forwarder, or none at all. -/
theorem Refines.runs
    {tunnel next : Tunnel} {event : TunnelEvent}
    (refines : Refines tunnel) (permitted : tunnelEnabled tunnel event)
    (runs : Runs tunnel event next) :
    Refines next := by
  rcases refines with ⟨reachable, coupled⟩
  have holds := reachable_sealed reachable
  cases runs with
  | shakes before after =>
      refine ⟨reachable, ?_⟩
      intro proxy member
      exact (coupled proxy member).trans (before.trans after.symm)
  | forwards before after turn =>
      have allowed := coupled.allowed permitted before
      refine ⟨reachable_turn reachable turn allowed, ?_⟩
      intro last member
      rcases phase_of_step holds turn allowed member with
        ⟨live, _, phase⟩
      exact phase.trans after.symm
  | fails before after turn =>
      have allowed := coupled.allowed permitted before
      refine ⟨reachable_turn reachable turn allowed, ?_⟩
      intro last member
      rcases phase_of_step holds turn allowed member with
        ⟨live, _, phase⟩
      exact phase.trans after.symm
  | event before turn =>
      have allowed := coupled.allowed permitted before
      refine ⟨reachable_turn reachable turn allowed, ?_⟩
      intro last member
      rcases phase_of_step holds turn allowed member with
        ⟨live, same, phase⟩
      have known := coupled live.proxy (by rw [same]; rfl)
      exact phase.trans known
  | other turn =>
      rcases permitted with ⟨other, allowed⟩
      refine ⟨reachable_turn reachable turn allowed, ?_⟩
      intro last member
      rcases phase_of_step holds turn allowed member with
        ⟨live, same, phase⟩
      have known := coupled live.proxy (by rw [same]; rfl)
      exact (phase.trans (begun_phase live other)).trans known

theorem phase_of_created
    {connection : Connection} (created : Created connection) :
    connection.phase = .handshake := by
  cases created with
  | socks made =>
      simp only [socksTcpCreate, socksCreate, if_true] at made
      split at made
      · cases made
      · cases made
        rfl
  | http made =>
      simp only [httpTcpCreate, if_true] at made
      split at made
      · cases made
      · cases made
        rfl

/-- Every run of a tunnel is a run of the forwarder. -/
theorem tunnel_refines
    {tunnel : Tunnel}
    (reachable : (tunnelSystem conf inet).Reachable tunnel) :
    Refines tunnel := by
  refine System.Reachable.invariant ?_ ?_ reachable
  · rintro source ⟨pcb, env, fresh, created, made⟩
    constructor
    · exact .start ⟨pcb, _, env, fresh, .inl rfl, made⟩
    · rw [coreTcpNew_some] at made
      injection made with made
      injection made with _ made
      intro proxy member
      rw [← made] at member
      cases member
      exact (phase_of_created created).symm
  · intro source event target refines permitted handled
    have unfailed :=
      unfailed_of_coupled refines.coupled
        (reachable_sealed refines.reachable)
    exact refines.runs permitted
      (runs_of_step unfailed permitted handled)

/-! ## When the connection is established -/

def isEstablished : Action → Bool
  | .established => true
  | _ => false

/-- The forwarder set `proxyestab`. -/
def established (trace : List Action) : Bool := trace.any isEstablished

/-- The forwarder sets `proxyestab` between the two worlds. -/
def Establishes (before after : World) : Prop :=
  (established before.env.trace = false ∧
      established after.env.trace = true) ∨
    ∃ first ∈ before.pcb, ∃ last ∈ after.pcb,
      first.proxyestab = false ∧ last.proxyestab = true

theorem not_establishes_self (world : World) :
    ¬ Establishes world world := by
  rintro (⟨silent, recorded⟩ | ⟨first, present, last, member, closed,
    opened⟩)
  · rw [silent] at recorded
    cases recorded
  · have same : first = last :=
      Option.some.inj (present.symm.trans member)
    rw [← same, closed] at opened
    cases opened

/-- The application knows nothing of the connection in this world. -/
structure Unknown (world : World) : Prop where
  trace : established world.env.trace = false
  pcb : ∀ pcb ∈ world.pcb, pcb.proxyestab = false

theorem Unknown.not_establishes
    {before after : World} (unknown : Unknown after) :
    ¬ Establishes before after := by
  rintro (⟨_, recorded⟩ | ⟨first, _, last, member, _, opened⟩)
  · rw [unknown.trace] at recorded
    cases recorded
  · rw [unknown.pcb last member] at opened
    cases opened

theorem established_abortActions
    {live : Live} (silent : established live.env.trace = false)
    (force : Bool) :
    established (aborted live force).env.trace = false := by
  show established (live.env.trace ++ abortActions live force) = false
  simp only [established, List.any_append] at silent ⊢
  rw [silent]
  simp only [abortActions, abortEmission]
  split <;> rfl

/-- A destroyed connection is unknown if it was not established. -/
theorem unknown_aborted
    {live : Live} (silent : established live.env.trace = false)
    (force : Bool) :
    Unknown (aborted live force) where
  trace := established_abortActions silent force
  pcb := by
    intro pcb member
    cases member

/-- No event establishes a connection which waits for the handshake. -/
theorem Waiting.unknown
    {live : Live} (linked : Linked live) (waiting : Waiting live)
    (shaking : live.proxy.phase = .handshake)
    {turn : Turn} (permitted : enabled live.world turn)
    {err : ErrT} {world : World}
    (ran : handle turn (prepare turn live.world) = .ok (err, world))
    (outcome : Outcome live turn err world) :
    Unknown world := by
  have silent : established live.env.trace = false := by
    rw [waiting.silent]
    rfl
  cases outcome with
  | @lwip next answers =>
      rcases permitted with ⟨pcb, ⟨⟩, moved⟩
      refine ⟨silent, ?_⟩
      rintro pcb ⟨⟩
      exact moved.proxyestab.trans waiting.closed
  | sent outcome =>
      rcases permitted with ⟨pcb, ⟨⟩, calls, _⟩
      simp [callsBack, waiting.closed] at calls
  | received outcome =>
      rcases permitted with ⟨pcb, ⟨⟩, calls, _⟩
      simp [callsBack, waiting.closed] at calls
  | lost =>
      constructor
      · show established (live.env.trace ++ _) = false
        rw [waiting.silent]
        rfl
      · intro pcb member
        cases member
  | handshakeDone =>
      refine ⟨silent, ?_⟩
      rintro pcb ⟨⟩
      exact waiting.closed
  | handshakeFailed outcome =>
      rw [handle_handshakeFailed linked waiting] at ran
      cases ran
      refine unknown_aborted ?_ true
      show established (live.env.trace ++ _) = false
      rw [waiting.silent]
      rfl
  | proxyEvent outcome =>
      rcases permitted with ⟨proxy, ⟨⟩, forwarding⟩
      rw [shaking] at forwarding
      cases forwarding
  | expired zero =>
      apply unknown_aborted
      exact silent
  | ticked positive =>
      refine ⟨silent, ?_⟩
      rintro pcb ⟨⟩
      exact waiting.closed

/-- Only a forwarding connection is established. -/
theorem forwarding_of_establishes
    {world next : World} {turn : Turn}
    (holds : LiveOrDead Sealed world)
    (handled : step world turn = .ok next)
    (permitted : enabled world turn)
    (establishes : Establishes world next) :
    ∃ proxy ∈ world.proxy, proxy.phase = .forwarding := by
  rcases holds with ⟨live, rfl, linked, holds⟩ | dead
  · rcases step_ok handled with ⟨err, ran⟩
    rcases handle_cases linked turn with
      ⟨err, world, run, outcome⟩ | failed
    · rw [ran] at run
      cases run
      cases phase : live.proxy.phase with
      | failed =>
          exact absurd phase holds.unfailed
      | handshake =>
          have unknown :=
            (holds.waiting phase).unknown linked phase permitted ran
              outcome
          exact absurd establishes unknown.not_establishes
      | forwarding =>
          exact ⟨live.proxy, rfl, phase⟩
    · rw [ran] at failed
      cases failed
  · rcases dead_enabled dead permitted with
      ⟨pcb, after, event, member, moved⟩
    rcases step_ok handled with ⟨err, run⟩
    rw [handle_lwip event] at run
    cases run
    rcases establishes with ⟨silent, recorded⟩ |
      ⟨first, present, last, ⟨⟩, closed, opened⟩
    · have same : established world.env.trace = true := recorded
      rw [silent] at same
      cases same
    · have known : first = pcb :=
        Option.some.inj (present.symm.trans member)
      rw [moved.proxyestab, ← known, closed] at opened
      cases opened

/-- The handshake failed: what the forwarder does when it is told. -/
theorem step_handshakeFailed
    {live : Live} (linked : Linked live) (waiting : Waiting live)
    (answers : Answers) :
    ∃ world,
      step live.world ⟨.handshakeFailed, answers⟩ = .ok world ∧
        world.fwd = none ∧ world.pcb = none ∧
        .tcpAbort ∈ world.env.trace ∧
        established world.env.trace = false := by
  refine
    ⟨aborted
      (refusal (failedLive (readied live ⟨.handshakeFailed, answers⟩)))
      true, ?_, rfl, rfl, ?_, ?_⟩
  · rw [step, handle_handshakeFailed linked waiting]
    rfl
  · refine List.mem_append_right _ ?_
    simp [abortActions]
  · refine established_abortActions ?_ true
    show established (live.env.trace ++ _) = false
    rw [waiting.silent]
    rfl

/-- What the application can see of a tunnel in a given state. -/
structure Guarded (conf : Nspconf) (inet : Inet) (tunnel : Tunnel) :
    Prop where
  /-- `proxyestab` is set in the forwarding phase only. -/
  forwarding :
    ∀ event next,
      tunnelEnabled tunnel event →
      tunnelStep conf inet tunnel event = .ok next →
      Establishes tunnel.world next.world →
      tunnel.connection.phase = .forwarding ∧
        next.connection.phase = .forwarding
  /-- Before that `tcp_output` emits nothing, and nothing was emitted. -/
  silent :
    ∀ pcb ∈ tunnel.world.pcb,
      pcb.proxyestab = false →
      (∀ inputPcb writes,
        tcpOutput inputPcb writes pcb = (.ok, pcb, [])) ∧
      (tunnel.world.fwd ≠ none → Mute tunnel.world.env.trace)
  /--
  An event by which the handshake fails is the first one which reaches the
  forwarder.  It destroys the forward and aborts the control block.
  -/
  refused :
    ∀ events handshake answers next told,
      tunnelEnabled tunnel (.epoll events handshake answers) →
      tunnel.connection.phase = .handshake →
      tunnel.connection.epcbEvents conf inet handshake events =
        .ok (next, told) →
      next.phase = .failed →
      tunnel.world.env.trace = [] ∧
        ∃ world,
          tunnelStep conf inet tunnel
              (.epoll events handshake answers) =
            .ok ⟨next, world⟩ ∧
          world.fwd = none ∧ world.pcb = none ∧
          .tcpAbort ∈ world.env.trace ∧
          established world.env.trace = false

/--
The application sees a connection only when the tunnel exists, in every state
of a connection through a SOCKS5 or HTTP proxy.
-/
theorem established_after_tunnel
    {tunnel : Tunnel}
    (reachable : (tunnelSystem conf inet).Reachable tunnel) :
    Guarded conf inet tunnel := by
  rcases tunnel_refines reachable with ⟨runs, coupled⟩
  have holds := reachable_sealed runs
  constructor
  · intro event next permitted handled establishes
    have unfailed := unfailed_of_coupled coupled holds
    have known := runs_of_step unfailed permitted handled
    cases known with
    | shakes before after =>
        exact absurd establishes (not_establishes_self _)
    | forwards before after turn =>
        have allowed := coupled.allowed permitted before
        rcases forwarding_of_establishes holds turn allowed
            establishes with
          ⟨proxy, member, forwarding⟩
        have phase := (coupled proxy member).symm.trans forwarding
        exact ⟨phase, after⟩
    | fails before after turn =>
        have allowed := coupled.allowed permitted before
        rcases forwarding_of_establishes holds turn allowed
            establishes with
          ⟨proxy, member, forwarding⟩
        have phase := (coupled proxy member).symm.trans forwarding
        rw [before] at phase
        cases phase
    | event before turn =>
        exact ⟨before, before⟩
    | other turn =>
        rcases forwarding_of_establishes holds turn permitted.2
            establishes with
          ⟨proxy, member, forwarding⟩
        have phase := (coupled proxy member).symm.trans forwarding
        exact ⟨phase, phase⟩
  · intro pcb member closed
    refine ⟨fun inputPcb writes =>
      tcpOutput_unestablished inputPcb writes closed, ?_⟩
    intro alive
    rcases holds with ⟨live, same, linked, holds⟩ | dead
    · rw [same] at member ⊢
      cases member
      cases phase : live.proxy.phase with
      | failed =>
          exact absurd phase holds.unfailed
      | handshake =>
          show Mute live.env.trace
          rw [(holds.waiting phase).silent]
          rfl
      | forwarding =>
          exact (holds.opening phase).mute closed
    · exact absurd dead.fwd alive
  · intro events handshake answers next told permitted shaking ran failed
    rcases holds with ⟨live, same, linked, holds⟩ | dead
    · have phase := coupled live.proxy (by rw [same]; rfl)
      have waiting := holds.waiting (phase.trans shaking)
      rcases step_handshakeFailed linked waiting answers with
        ⟨world, handled, gone⟩
      refine ⟨?_, world, ?_, gone⟩
      · rw [same]
        exact waiting.silent
      · rcases epcbEvents_shaking conf inet shaking handshake events with
          ⟨result, again, shaken⟩
        rw [ran] at again
        cases again
        rw [← same] at handled
        cases shaken with
        | shakes after =>
            rw [failed] at after
            cases after
        | forwards after =>
            rw [failed] at after
            cases after
        | fails after =>
            simp only [tunnelStep, ran, turnOf, failed, handled]
            rfl
    · simp [tunnelEnabled, dead.proxy] at permitted

end Composition

/-! ## A run through a SOCKS5 proxy -/

/-- A configuration without credentials. -/
def sampleConf : Nspconf where
  proxysrv := ascii "127.0.0.1"
  proxyport := 1080
  proxytype := .socks5
  dnssrv := ascii "1.1.1.1"
  dnsport := 53
  dnstype := .tcp
  proxyuser := []
  proxypass := []
  ipv6 := false
  directCidrs := []
  directCidrCapacity := 0
  directCidrMode := .whitelist

/-- The conversions of the one address of the run. -/
def sampleInet : Inet where
  pton4 text :=
    if text = ascii "10.0.0.1" then some sampleV4 else none
  pton6 _ := none
  ntop4 addr :=
    if addr = sampleV4 then ascii "10.0.0.1"
    else ascii "0.0.0.0"
  ntop6 _ := ascii "::"
  ntoa _ := ascii "10.0.0.1"

/-- The first state of the run. -/
def sampleTunnel : Tunnel where
  connection :=
    .socks
      { events := epollout
        addr := ascii "10.0.0.1"
        port := 80
        type := .tcpForward
        phase := .sendMethod
        hsbuff := []
        relay := none }
  world :=
    (newborn
      (tcpListenInput ⟨100, 64240, some 1460, true, false⟩ 6510 0)
      ⟨.handshake, epollout⟩ ⟨false, true, false, [], [], []⟩).world

theorem initial_sampleTunnel :
    (tunnelSystem sampleConf sampleInet).initial sampleTunnel := by
  refine ⟨_, ⟨false, true, false, [], [], []⟩,
    freshPcb_tcpListenInput ⟨100, 64240, some 1460, true, false⟩ 6510 0,
    ?_, rfl⟩
  have made :
      socksTcpCreate (ascii "10.0.0.1") 80 true true =
        some
          { events := epollout
            addr := ascii "10.0.0.1"
            port := 80
            type := .tcpForward
            phase := .sendMethod
            hsbuff := []
            relay := none } := by
    decide
  exact .socks made

/-- The socket sends everything and receives these bytes. -/
def sampleEpoll (events : EventMask) (bytes : List UInt8) :
    TunnelEvent :=
  .epoll events ⟨.accept 1023, .data bytes, .data bytes, true⟩
    ⟨[], [], .ok, [], []⟩

/-- The handshake succeeds and the connection is established. -/
def sampleRun : List TunnelEvent :=
  [sampleEpoll epollout [], sampleEpoll epollin [5, 0],
    sampleEpoll epollout [],
    sampleEpoll epollin [5, 0, 0, 1, 10, 0, 0, 1, 0, 80],
    sampleEpoll epollout []]

theorem established_after_tunnel_socks :
    ∃ tunnel : Tunnel,
      established tunnel.world.env.trace = true ∧
        Guarded sampleConf sampleInet tunnel := by
  have passes :
      ((tunnelSystem sampleConf sampleInet).replay sampleTunnel
          sampleRun).map
          (fun tunnel => established tunnel.world.env.trace) =
        some true := by
    decide +kernel
  rcases System.Reachable.exists_replay (.start initial_sampleTunnel)
      passes with
    ⟨tunnel, reachable, told⟩
  exact ⟨tunnel, told, established_after_tunnel reachable⟩

end Nsproxy.Core.Establish
