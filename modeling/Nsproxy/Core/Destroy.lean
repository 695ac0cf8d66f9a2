import Mathlib.Tactic.Common
import Nsproxy.Core.Upstream

/-!
# The destruction of a forward

Whatever event arrives, and whatever the proxy and lwIP answer, the handlers
keep to one protocol.  A forward is closed without force only when both
directions are finished; a destruction which leaves bytes behind resets both
sides; lwIP learns of an aborted control block exactly by `ERR_ABRT`, and
never gets back data which was consumed; and no handler uses the forward, its
control block or its proxy after the destruction.
-/

namespace Nsproxy.Core.Destroy

open Nsproxy.Lib.Transition
open Nsproxy.Lwip.Opts
open Nsproxy.Lwip.Buffers
open Nsproxy.Lwip.TcpOut
open Nsproxy.Lwip.Tcp
open Nsproxy.Skutils
open Nsproxy.Core.Memory
open Nsproxy.Core.TcpHandlers
open Nsproxy.Core.TcpOutcomes
open Nsproxy.Core.TcpPaths
open Nsproxy.Core.TcpEvents
open Nsproxy.Core.Upstream

/-- The action belongs to the destruction of a forward. -/
def destroys : Action → Bool
  | .forwardDestroy _ _ => true
  | .tcpAbort => true
  | .tcpClose => true
  | .proxyShutdown rst _ => rst
  | .proxyPut => true
  | _ => false

/-- What one event may do to a connection, by the actions it takes. -/
structure Protocol
    (world next : World) (turn : Turn) (err : ErrT)
    (actions : List Action) : Prop where
  /-- A destruction without force finds both directions finished. -/
  graceful :
    ∀ fwd, .forwardDestroy fwd false ∈ actions →
      fwd.proxyeof = true ∧ fwd.lwipeof = true ∧
        fwd.sndq.isNull = true ∧ fwd.rcvq.isNull = true ∧
        .tcpClose ∈ actions ∧ .tcpAbort ∉ actions ∧
        ∀ result, .proxyShutdown true result ∉ actions
  /-- A destruction which leaves bytes behind resets both sides. -/
  resets :
    ∀ fwd force, .forwardDestroy fwd force ∈ actions →
      fwd.undelivered = true →
        (fwd.pcb = true → .tcpAbort ∈ actions) ∧
          ∀ proxy ∈ world.proxy, proxy.phase = .forwarding →
            .proxyShutdown true .ok ∈ actions
  /-- `tcp_input` learns of an aborted control block. -/
  returned :
    duringInput turn.event = true →
      (err = .abrt ↔ .tcpAbort ∈ actions)
  /-- Delivered data is never refused. -/
  data :
    ∀ chain, turn.event = .received chain → chain.isNull = false →
      err = .ok ∨ err = .abrt
  /-- Nothing is left to be used after a destruction. -/
  gone :
    ∀ fwd force, .forwardDestroy fwd force ∈ actions → Dead next

/-! ## Before the destruction -/

/-- The handler destroyed nothing on the way from `live` to `last`. -/
structure Spares (live last : Live) (before : List Action) : Prop where
  trace : last.env.trace = live.env.trace ++ before
  harmless : ∀ action ∈ before, destroys action = false
  phase :
    live.proxy.phase = .forwarding → last.proxy.phase = .forwarding

theorem Spares.refl (live : Live) : Spares live live [] :=
  ⟨(List.append_nil _).symm, by simp, id⟩

theorem Spares.trans
    {first second third : Live} {front back : List Action}
    (before : Spares first second front)
    (after : Spares second third back) :
    Spares first third (front ++ back) where
  trace := by
    rw [after.trace, before.trace, List.append_assoc]
  harmless := by
    intro action member
    rcases List.mem_append.mp member with early | late
    · exact before.harmless action early
    · exact after.harmless action late
  phase := fun forwarding => after.phase (before.phase forwarding)

theorem harmless_emissions
    {emissions : List Emission} {action : Action}
    (member : action ∈ emissions.map .emit) :
    destroys action = false := by
  rcases List.mem_map.mp member with ⟨emission, _, rfl⟩
  rfl

theorem spares_record
    (live : Live) {action : Action} (harmless : destroys action = false) :
    Spares live (live.record [action]) [action] where
  trace := rfl
  harmless := by
    intro other member
    rw [List.mem_singleton.mp member]
    exact harmless
  phase := id

theorem spares_output (live : Live) :
    ∃ before, Spares live live.output before :=
  ⟨_, rfl, fun _ member => harmless_emissions member, id⟩

theorem spares_offered
    (live : Live) (bytes : List UInt8) (err : ErrT) (next : TcpPcb) :
    Spares live (offered live bytes err next)
      [.proxyRecv (.data bytes),
        .tcpWrite bytes live.pcb.tcpSndbuf err] where
  trace := by
    simp [offered, Live.record, Live.modifyPcb]
  harmless := by
    intro action member
    rcases List.mem_cons.mp member with rfl | rest
    · rfl
    · rw [List.mem_singleton.mp rest]
      rfl
  phase := id

theorem spares_feed
    (live : Live) (bytes : List UInt8) (next : TcpPcb) :
    ∃ before, Spares live (feed live bytes next) before := by
  have stored :
      Spares (offered live bytes .ok next)
        ((offered live bytes .ok next).modifyFwd
          fun fwd => enqueueSent fwd bytes) [] :=
    ⟨(List.append_nil _).symm, by simp, id⟩
  rcases spares_output
      ((offered live bytes .ok next).modifyFwd
        fun fwd => enqueueSent fwd bytes) with
    ⟨after, emitted⟩
  exact ⟨_,
    ((spares_offered live bytes .ok next).trans stored).trans emitted⟩

/-- A small step destroys nothing. -/
theorem spares_micro {live next : Live} (step : Micro live next) :
    ∃ before, Spares live next before := by
  cases step with
  | refresh =>
      exact ⟨[], (List.append_nil _).symm, by simp, id⟩
  | evctl _ mask mode =>
      refine ⟨[], (List.append_nil _).symm, by simp, ?_⟩
      intro forwarding
      show (live.proxy.evctl _ mask mode).phase = .forwarding
      rw [Proxy.evctl_phase, forwarding]
  | recvFailed errno =>
      exact ⟨_, spares_record live rfl⟩
  | feed room filled short written =>
      exact spares_feed live _ _
  | proxyEnded room =>
      exact ⟨[.proxyRecv (.data [])], rfl, by simp [destroys], id⟩
  | shutdown finished =>
      refine ⟨_, rfl, ?_, id⟩
      intro action member
      rcases List.mem_cons.mp member with rfl | emits
      · rfl
      · exact harmless_emissions emits
  | sendFailed errno =>
      exact ⟨_, spares_record live rfl⟩
  | drain queued bounded =>
      refine ⟨_, drain_trace live _, ?_, id⟩
      intro action member
      rcases List.mem_cons.mp member with rfl | rest
      · rfl
      rcases List.mem_cons.mp rest with rfl | emits
      · rfl
      · exact harmless_emissions emits
  | shutFailed setting errno =>
      exact ⟨_, spares_record live rfl⟩
  | eofShut setting empty due =>
      exact ⟨[.proxyShutdown false .ok], rfl, by simp [destroys], id⟩
  | eofDisabled setting empty due =>
      exact ⟨[], (List.append_nil _).symm, by simp, id⟩
  | ack =>
      exact ⟨[], (List.append_nil _).symm, by simp, id⟩
  | establish =>
      exact ⟨[.established], rfl, by simp [destroys], id⟩
  | output =>
      exact spares_output live

theorem spares_path {live last : Live} (path : Path live last) :
    ∃ before, Spares live last before := by
  induction path with
  | refl =>
      exact ⟨[], Spares.refl live⟩
  | tail before next induction =>
      rcases induction with ⟨front, early⟩
      rcases spares_micro next with ⟨back, late⟩
      exact ⟨front ++ back, early.trans late⟩

/-- The first effect of an event destroys nothing. -/
theorem spares_begun
    {live : Live} {turn : Turn} (permitted : enabled live.world turn) :
    ∃ before, Spares live (begun live turn) before := by
  rcases turn with ⟨event, answers⟩
  cases event with
  | lwip next =>
      exact ⟨[], (List.append_nil _).symm, by simp, id⟩
  | sent len =>
      exact ⟨[.lwipSent len.toNat], rfl, by simp [destroys], id⟩
  | received chain =>
      exact ⟨[.lwipReceived chain], rfl, by simp [destroys], id⟩
  | err =>
      exact ⟨[], (List.append_nil _).symm, by simp, id⟩
  | handshakeDone =>
      exact ⟨[], (List.append_nil _).symm, by simp, fun _ => rfl⟩
  | handshakeFailed =>
      refine ⟨[], (List.append_nil _).symm, by simp, ?_⟩
      intro forwarding
      rcases permitted with ⟨proxy, ⟨⟩, handshake⟩
      rw [forwarding] at handshake
      cases handshake
  | proxyEvent events =>
      exact ⟨[], (List.append_nil _).symm, by simp, id⟩
  | gcTick =>
      simp only [begun]
      split
      · exact ⟨[], (List.append_nil _).symm, by simp, id⟩
      · exact ⟨[], (List.append_nil _).symm, by simp, id⟩

/-- No handler but the callback of lwIP notes the end of its stream. -/
theorem path_lwipeof {live last : Live} (path : Path live last) :
    last.fwd.lwipeof = live.fwd.lwipeof := by
  induction path with
  | refl =>
      rfl
  | tail before next induction =>
      rw [← induction]
      cases next <;> rfl

/-! ## The ways to end -/

theorem harmless_destroy
    {before : List Action}
    (harmless : ∀ action ∈ before, destroys action = false)
    {action : Action} (destroying : destroys action = true) :
    action ∉ before := by
  intro member
  rw [harmless action member] at destroying
  cases destroying

/-- An event which destroys nothing keeps to the protocol. -/
theorem protocol_harmless
    (world next : World) (turn : Turn) {actions : List Action}
    (harmless : ∀ action ∈ actions, destroys action = false) :
    Protocol world next turn .ok actions where
  graceful := by
    intro fwd member
    exact absurd member (harmless_destroy harmless rfl)
  resets := by
    intro fwd force member
    exact absurd member (harmless_destroy harmless rfl)
  returned := by
    intro _
    constructor
    · intro wrong
      cases wrong
    · intro member
      exact absurd member (harmless_destroy harmless rfl)
  data := fun _ _ _ => .inl rfl
  gone := by
    intro fwd force member
    exact absurd member (harmless_destroy harmless rfl)

/-- A destruction among harmless actions is the one of the suffix. -/
theorem mem_destruction
    {before rest : List Action}
    (harmless : ∀ action ∈ before, destroys action = false)
    {action : Action} (destroying : destroys action = true)
    (member : action ∈ before ++ rest) :
    action ∈ rest := by
  rcases List.mem_append.mp member with early | late
  · exact absurd early (harmless_destroy harmless destroying)
  · exact late

theorem mem_abortActions
    {live : Live} {force : Bool} {action : Action}
    (member : action ∈ abortActions live force) :
    action = .forwardDestroy live.fwd force ∨ action = .tcpAbort ∨
      (∃ emission, action = .emit emission) ∨
      action = .proxyShutdown true (live.proxy.shutdown .ok true) ∨
      action = .proxyPut := by
  simp only [abortActions, List.cons_append, List.mem_cons,
    List.mem_append, List.mem_map, List.not_mem_nil, or_false] at member
  rcases member with first | second | ⟨emission, _, rfl⟩ | third | last
  · exact .inl first
  · exact .inr (.inl second)
  · exact .inr (.inr (.inl ⟨emission, rfl⟩))
  · exact .inr (.inr (.inr (.inl third)))
  · exact .inr (.inr (.inr (.inr last)))

theorem shutdown_forwarding
    {proxy : Proxy} (forwarding : proxy.phase = .forwarding) :
    proxy.shutdown .ok true = .ok := by
  simp [Proxy.shutdown, forwarding]

/-- An aborting destruction keeps to the protocol. -/
theorem protocol_aborted
    {live last : Live} {turn : Turn} {err : ErrT}
    {before : List Action} (spares : Spares live last before)
    (returned : duringInput turn.event = true → err = .abrt)
    (told : err = .ok ∨ err = .abrt) :
    Protocol live.world (aborted last true) turn err
      (before ++ abortActions last true) where
  graceful := by
    intro fwd member
    have late := mem_destruction spares.harmless rfl member
    rcases mem_abortActions late with
      same | same | ⟨_, same⟩ | same | same <;> cases same
  resets := by
    intro fwd force _ _
    constructor
    · intro _
      apply List.mem_append_right
      simp [abortActions]
    · rintro proxy ⟨⟩ forwarding
      apply List.mem_append_right
      have reset := shutdown_forwarding (spares.phase forwarding)
      simp [abortActions, reset]
  returned := by
    intro input
    refine ⟨fun _ => ?_, fun _ => returned input⟩
    apply List.mem_append_right
    simp [abortActions]
  data := fun _ _ _ => told
  gone := fun _ _ _ => dead_aborted last true

theorem mem_closeActions
    {live : Live} {action : Action}
    (member : action ∈ closeActions live) :
    action = .forwardDestroy live.fwd false ∨ action = .tcpClose ∨
      (∃ emission, action = .emit emission) ∨ action = .proxyPut := by
  simp only [closeActions, List.cons_append, List.mem_cons,
    List.mem_append, List.mem_map, List.not_mem_nil, or_false] at member
  rcases member with first | second | ⟨emission, _, rfl⟩ | last
  · exact .inl first
  · exact .inr (.inl second)
  · exact .inr (.inr (.inl ⟨emission, rfl⟩))
  · exact .inr (.inr (.inr last))

/-- A closing destruction keeps to the protocol. -/
theorem protocol_closed
    {live last : Live} {turn : Turn} {err : ErrT}
    {before : List Action} (spares : Spares live last before)
    (finished : proxyFinished last.fwd = true)
    (drained : lwipFinished last.fwd = true)
    (told : err ≠ .abrt)
    (data :
      ∀ chain, turn.event = .received chain → chain.isNull = false →
        err = .ok ∨ err = .abrt) :
    Protocol live.world (closed last) turn err
      (before ++ closeActions last) := by
  simp only [proxyFinished, Bool.and_eq_true] at finished
  simp only [lwipFinished, Bool.and_eq_true] at drained
  have spared : .tcpAbort ∉ before ++ closeActions last := by
    intro member
    have late := mem_destruction spares.harmless rfl member
    rcases mem_closeActions late with
      same | same | ⟨_, same⟩ | same <;> cases same
  constructor
  · intro fwd member
    have late := mem_destruction spares.harmless rfl member
    rcases mem_closeActions late with
      same | same | ⟨_, same⟩ | same <;> cases same
    refine ⟨finished.1, drained.1, finished.2, drained.2, ?_, spared,
      ?_⟩
    · apply List.mem_append_right
      simp [closeActions]
    · intro result reset
      have late := mem_destruction spares.harmless rfl reset
      rcases mem_closeActions late with
        same | same | ⟨_, same⟩ | same <;> cases same
  · intro fwd force member left
    have late := mem_destruction spares.harmless rfl member
    rcases mem_closeActions late with
      same | same | ⟨_, same⟩ | same <;> cases same
    simp [TcpForward.undelivered, finished.2, drained.2] at left
  · intro _
    exact ⟨fun aborts => absurd aborts told,
      fun member => absurd member spared⟩
  · exact data
  · exact fun _ _ _ => dead_closed last

/-- The error callback of lwIP keeps to the protocol. -/
theorem protocol_lost
    {live : Live} {turn : Turn} (event : turn.event = .err) :
    Protocol live.world (lostPcb (readied live turn)) turn .ok
      (errActions live) where
  graceful := by
    intro fwd member
    simp [errActions] at member
  resets := by
    intro fwd force member _
    simp only [errActions, List.mem_cons, List.not_mem_nil,
      or_false] at member
    rcases member with same | same | same
    · cases same
      refine ⟨by simp, ?_⟩
      rintro proxy ⟨⟩ forwarding
      simp [errActions, shutdown_forwarding forwarding]
    · cases same
    · cases same
  returned := by
    intro input
    rw [event] at input
    cases input
  data := fun _ _ _ => .inl rfl
  gone := fun _ _ _ => dead_lostPcb _

/-! ## Every event -/

/-- What lwIP is told of an aborting handler. -/
theorem told_abort
    {turn : Turn} {err : ErrT}
    (told :
      (duringInput turn.event = true ∧ err = .abrt) ∨
        (duringInput turn.event = false ∧ err = .ok)) :
    (duringInput turn.event = true → err = .abrt) ∧
      (err = .ok ∨ err = .abrt) := by
  rcases told with ⟨_, same⟩ | ⟨other, same⟩
  · exact ⟨fun _ => same, .inr same⟩
  · refine ⟨?_, .inl same⟩
    intro input
    rw [input] at other
    cases other

/-- How a handler ends keeps to the protocol. -/
theorem protocol_of_ends
    {live : Live} {turn : Turn} {ended err : ErrT} {next : World}
    (permitted : enabled live.world turn)
    (data :
      ∀ chain, turn.event = .received chain → chain.isNull = false →
        (begun live turn).fwd.lwipeof = false)
    (ends : Ends (begun live turn) ended next)
    (told :
      (duringInput turn.event = true ∧ err = ended) ∨
        (duringInput turn.event = false ∧ err = .ok)) :
    ∃ actions,
      next.env.trace = live.env.trace ++ actions ∧
        Protocol live.world next turn err actions := by
  rcases spares_begun permitted with ⟨front, began⟩
  cases ends with
  | lives path =>
      rcases spares_path path with ⟨back, spared⟩
      have spares := began.trans spared
      have fine : err = .ok := by
        rcases told with ⟨_, same⟩ | ⟨_, same⟩ <;> exact same
      subst fine
      exact ⟨_, spares.trace, protocol_harmless _ _ _ spares.harmless⟩
  | aborts path =>
      rcases spares_path path with ⟨back, spared⟩
      have spares := began.trans spared
      refine ⟨_, ?_, protocol_aborted spares ?_ ?_⟩
      · rw [← List.append_assoc, ← spares.trace]
        rfl
      · exact (told_abort told).1
      · exact (told_abort told).2
  | @refuses last bytes refusal path room filled short written failed =>
      rcases spares_path path with ⟨back, spared⟩
      have spares :=
        (began.trans spared).trans
          (spares_offered last bytes refusal last.pcb)
      refine ⟨_, ?_, protocol_aborted spares ?_ ?_⟩
      · rw [← List.append_assoc, ← spares.trace]
        rfl
      · exact (told_abort told).1
      · exact (told_abort told).2
  | @closes last path finished drained =>
      rcases spares_path path with ⟨back, spared⟩
      have spares := began.trans spared
      refine ⟨_, ?_,
        protocol_closed spares finished drained ?_ ?_⟩
      · rw [← List.append_assoc, ← spares.trace]
        rfl
      · rcases told with ⟨_, rfl⟩ | ⟨_, rfl⟩ <;> simp
      · intro chain event present
        have open_ := data chain event present
        rw [← path_lwipeof path] at open_
        simp [lwipFinished, open_] at drained

/-- lwIP delivers data only while the application's stream is open. -/
theorem data_before_eof
    {live : Live} (holds : Intact live) {turn : Turn}
    (permitted : enabled live.world turn) {chain : PbufChain}
    (event : turn.event = .received chain)
    (present : chain.isNull = false) :
    (begun live turn).fwd.lwipeof = false := by
  rcases turn with ⟨_, answers⟩
  subst event
  rcases permitted with ⟨pcb, _, _, unfinished⟩
  show (arrived _ chain).fwd.lwipeof = false
  rw [arrived_data present]
  show live.fwd.lwipeof = false
  rw [← holds.eof]
  exact unfinished

/--
In every reachable state, every event which may occur is handled without
touching freed memory, and what it does keeps to the protocol.
-/
theorem destroy_protocol
    {world : World} (reachable : forwardSystem.Reachable world)
    {turn : Turn} (permitted : enabled world turn) :
    handle turn (prepare turn world) ≠ .error .useAfterFree ∧
      ∀ err next,
        handle turn (prepare turn world) = .ok (err, next) →
          ∃ actions,
            next.env.trace = world.env.trace ++ actions ∧
              Protocol world next turn err actions := by
  rcases reachable_intact reachable with
    ⟨live, rfl, linked, holds⟩ | dead
  · have data := fun chain event present =>
      @data_before_eof live holds turn permitted chain event present
    rcases handle_cases linked turn with
      ⟨err, world, run, outcome⟩ | failed
    · refine ⟨by rw [run]; simp, ?_⟩
      intro told next ran
      rw [run] at ran
      cases ran
      cases outcome.handled with
      | calledBack input ends =>
          exact protocol_of_ends permitted data ends
            (.inl ⟨input, rfl⟩)
      | ends other ends =>
          exact protocol_of_ends permitted data ends
            (.inr ⟨other, rfl⟩)
      | lost event =>
          exact ⟨_, rfl, protocol_lost event⟩
    · refine ⟨by rw [failed]; simp, ?_⟩
      intro told next ran
      rw [failed] at ran
      cases ran
  · rcases dead_enabled dead permitted with
      ⟨pcb, after, event, member, moved⟩
    rw [handle_lwip event]
    refine ⟨by simp, ?_⟩
    rintro err next ⟨⟩
    exact ⟨[], (List.append_nil _).symm, protocol_harmless _ _ _ (by simp)⟩

/-- lwIP gives up a connection. -/
def lossTurn : Turn :=
  ⟨.err, { recvs := [], sends := [], shut := .ok, epoll := [], tun := [] }⟩

theorem destroy_protocol_loss :
    enabled sampleStart.world lossTurn ∧
      handle lossTurn (prepare lossTurn sampleStart.world) ≠
        .error .useAfterFree := by
  have permitted : enabled sampleStart.world lossTurn :=
    ⟨_, rfl, rfl⟩
  exact ⟨permitted,
    (destroy_protocol reachable_sampleStart permitted).1⟩

end Nsproxy.Core.Destroy
