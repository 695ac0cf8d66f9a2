import Mathlib.Tactic.Common
import Nsproxy.Lib.History
import Nsproxy.Core.TcpEvents

/-!
# From the application to the proxy

The bytes which lwIP delivers are the bytes which the proxy accepts, followed
by the receive queue.  Nothing is lost, repeated or reordered, however the
proxy cuts its acceptances, and the receive window is credited by exactly
what the proxy accepted.

The half-close is passed on at most once, after the end of the stream was
seen and all of it accepted, and never when the setting forbids it.
-/

namespace Nsproxy.Core.Upstream

open Nsproxy.Lib.History
open Nsproxy.Lib.Transition
open Nsproxy.Lwip.Opts
open Nsproxy.Lwip.Buffers
open Nsproxy.Lwip.TcpOut
open Nsproxy.Lwip.Tcp
open Nsproxy.Lwip.TcpIn
open Nsproxy.Skutils
open Nsproxy.Core.Memory
open Nsproxy.Core.TcpHandlers
open Nsproxy.Core.TcpOutcomes
open Nsproxy.Core.TcpPaths
open Nsproxy.Core.TcpEvents

/-! ## What a history tells about this direction -/

def acceptedBy : Action → List UInt8
  | .proxySend offered (.ok nsent) => offered.take nsent
  | _ => []

/-- All bytes which `proxy_send` accepted, in order. -/
def acceptedBytes (trace : List Action) : List UInt8 :=
  trace.flatMap acceptedBy

def recvedBy : Action → Nat
  | .tcpRecved len => len
  | _ => 0

/-- The sum of all credits given by `tcp_recved`. -/
def recvedTotal (trace : List Action) : Nat :=
  (trace.map recvedBy).sum

@[simp]
theorem acceptedBytes_append (front back : List Action) :
    acceptedBytes (front ++ back) =
      acceptedBytes front ++ acceptedBytes back :=
  List.flatMap_append

@[simp]
theorem recvedTotal_append (front back : List Action) :
    recvedTotal (front ++ back) =
      recvedTotal front + recvedTotal back := by
  simp [recvedTotal]

/--
When `proxy_shutdown(SHUT_WR)` may succeed: the application's stream ended,
the proxy accepted all of it, and it was not shut before.
-/
def shutPermitted (before : List Action) (action : Action) : Prop :=
  action = .proxyShutdown false .ok →
    eofReceived before = true ∧
      acceptedBytes before = receivedBytes before ∧
      .proxyShutdown false .ok ∉ before

/-- The action has no part in the transfer to the proxy. -/
structure Neutral (action : Action) : Prop where
  received : receivedBy action = []
  eof : endsReceipt action = false
  accepted : acceptedBy action = []
  recved : recvedBy action = 0
  shut : ∀ result, action ≠ .proxyShutdown false result

theorem neutral_emit (emission : Emission) : Neutral (.emit emission) :=
  ⟨rfl, rfl, rfl, rfl, by simp⟩

theorem neutral_proxyRecv (answer : RecvAnswer) :
    Neutral (.proxyRecv answer) :=
  ⟨rfl, rfl, rfl, rfl, by simp⟩

theorem neutral_tcpWrite (data : List UInt8) (sndbuf : Nat) (err : ErrT) :
    Neutral (.tcpWrite data sndbuf err) :=
  ⟨rfl, rfl, rfl, rfl, by simp⟩

theorem neutral_tcpShutdown (fwd : TcpForward) :
    Neutral (.tcpShutdown fwd) :=
  ⟨rfl, rfl, rfl, rfl, by simp⟩

theorem neutral_sendFailed (offered : List UInt8) (errno : Errno) :
    Neutral (.proxySend offered (.error errno)) :=
  ⟨rfl, rfl, rfl, rfl, by simp⟩

theorem neutral_lwipSent (len : Nat) : Neutral (.lwipSent len) :=
  ⟨rfl, rfl, rfl, rfl, by simp⟩

theorem neutral_established : Neutral .established :=
  ⟨rfl, rfl, rfl, rfl, by simp⟩

/-- Neutral actions leave every account of this direction as it was. -/
structure Unaccounted (actions : List Action) : Prop where
  received : receivedBytes actions = []
  eof : eofReceived actions = false
  accepted : acceptedBytes actions = []
  recved : recvedTotal actions = 0
  shut : ∀ result, .proxyShutdown false result ∉ actions

theorem unaccounted_of_neutral
    {actions : List Action}
    (calm : ∀ action ∈ actions, Neutral action) :
    Unaccounted actions where
  received :=
    List.flatMap_eq_nil_iff.mpr fun action member =>
      (calm action member).received
  eof :=
    List.any_eq_false.mpr fun action member => by
      simp [(calm action member).eof]
  accepted :=
    List.flatMap_eq_nil_iff.mpr fun action member =>
      (calm action member).accepted
  recved := by
    apply List.sum_eq_zero
    intro credit member
    rcases List.mem_map.mp member with ⟨action, inside, rfl⟩
    exact (calm action inside).recved
  shut := fun result member => (calm _ member).shut result rfl

/-! ## The invariant -/

/-- What holds of a live connection in the direction to the proxy. -/
structure Intact (live : Live) : Prop where
  bytes :
    acceptedBytes live.env.trace ++ live.fwd.rcvq.bytes =
      receivedBytes live.env.trace
  recved :
    recvedTotal live.env.trace = (acceptedBytes live.env.trace).length
  eof : eofReceived live.env.trace = live.fwd.lwipeof
  shut :
    .proxyShutdown false .ok ∈ live.env.trace →
      live.fwd.proxysendeof = true
  order : Throughout shutPermitted live.env.trace
  setting :
    live.env.noProxyHalfClose = true →
      ∀ result, .proxyShutdown false result ∉ live.env.trace

/-- What actions other than a half-close must do to keep the invariant. -/
structure Moves (live next : Live) (actions : List Action) : Prop where
  trace : next.env.trace = live.env.trace ++ actions
  bytes :
    acceptedBytes actions ++ next.fwd.rcvq.bytes =
      live.fwd.rcvq.bytes ++ receivedBytes actions
  recved : recvedTotal actions = (acceptedBytes actions).length
  eof : (live.fwd.lwipeof || eofReceived actions) = next.fwd.lwipeof
  unshut : ∀ result, .proxyShutdown false result ∉ actions
  proxysendeof : next.fwd.proxysendeof = live.fwd.proxysendeof
  setting : next.env.noProxyHalfClose = live.env.noProxyHalfClose

theorem Moves.intact
    {live next : Live} {actions : List Action}
    (moves : Moves live next actions) (holds : Intact live) :
    Intact next := by
  constructor
  · rw [moves.trace, acceptedBytes_append, List.append_assoc,
      moves.bytes, ← List.append_assoc, holds.bytes,
      receivedBytes_append]
  · rw [moves.trace, recvedTotal_append, acceptedBytes_append,
      List.length_append, holds.recved, moves.recved]
  · rw [moves.trace, eofReceived_append, holds.eof, moves.eof]
  · rw [moves.trace, moves.proxysendeof]
    intro member
    rcases List.mem_append.mp member with old | new
    · exact holds.shut old
    · exact absurd new (moves.unshut .ok)
  · rw [moves.trace]
    apply throughout_append_free holds.order
    intro action member before shuts
    rw [shuts] at member
    exact absurd member (moves.unshut .ok)
  · rw [moves.trace, moves.setting]
    intro forbidden result member
    rcases List.mem_append.mp member with old | new
    · exact holds.setting forbidden result old
    · exact moves.unshut result new

/-- The fields of a connection which this direction uses are the same. -/
structure Unmoved (live next : Live) : Prop where
  rcvq : next.fwd.rcvq = live.fwd.rcvq
  lwipeof : next.fwd.lwipeof = live.fwd.lwipeof
  proxysendeof : next.fwd.proxysendeof = live.fwd.proxysendeof
  setting : next.env.noProxyHalfClose = live.env.noProxyHalfClose

/-- Neutral actions preserve the invariant. -/
theorem Intact.neutral
    {live next : Live} (holds : Intact live)
    (same : Unmoved live next) {actions : List Action}
    (trace : next.env.trace = live.env.trace ++ actions)
    (calm : ∀ action ∈ actions, Neutral action) :
    Intact next := by
  have nothing := unaccounted_of_neutral calm
  have moves : Moves live next actions :=
    { trace := trace
      bytes := by simp [nothing.accepted, nothing.received, same.rcvq]
      recved := by simp [nothing.accepted, nothing.recved]
      eof := by simp [nothing.eof, same.lwipeof]
      unshut := nothing.shut
      proxysendeof := same.proxysendeof
      setting := same.setting }
  exact moves.intact holds

/-! ## The steps which move data -/

/-- The first buffer is the front of the queue. -/
theorem bytes_firstPayload (chain : PbufChain) :
    ∃ rest, chain.bytes = firstPayload chain ++ rest := by
  cases listed : chain.pbufs with
  | nil =>
      exact ⟨[], by simp [PbufChain.bytes, firstPayload, listed]⟩
  | cons pbuf others =>
      exact ⟨payloads others,
        by simp [PbufChain.bytes, firstPayload, listed]⟩

/-- The accepted front and the rest of the queue are the old queue. -/
theorem take_firstPayload_append
    (chain : PbufChain) {nsent : Nat}
    (bounded : nsent ≤ (firstPayload chain).length) :
    (firstPayload chain).take nsent ++
        (chain.pbufFreeHeader nsent).bytes =
      chain.bytes := by
  rcases bytes_firstPayload chain with ⟨rest, split⟩
  rw [PbufChain.bytes_pbufFreeHeader, split,
    List.drop_append_of_le_length bounded, ← List.append_assoc,
    List.take_append_drop]

/-- The credits and emissions after an acceptance. -/
def credited (live : Live) (nsent : Nat) : List Action :=
  .tcpRecved nsent ::
    (tcpRecved live.env.inputPcb (live.env.tun.headD [])
      live.pcb nsent).2.map .emit

theorem drain_trace (live : Live) (nsent : Nat) :
    (drain live nsent).env.trace =
      live.env.trace ++
        (.proxySend (firstPayload live.fwd.rcvq) (.ok nsent) ::
          credited live nsent) := by
  simp [drain, credited, Live.recved, Live.record, Live.modifyFwd,
    Live.modifyPcb, Live.takeWrites]

/-- The emissions after a credit are neutral. -/
theorem unaccounted_emissions (emissions : List Emission) :
    Unaccounted (emissions.map .emit) := by
  apply unaccounted_of_neutral
  intro action member
  rcases List.mem_map.mp member with ⟨emission, _, rfl⟩
  exact neutral_emit emission

/-- The accounts of an acceptance with its credit. -/
structure Accepts
    (payload : List UInt8) (nsent : Nat) (actions : List Action) :
    Prop where
  received : receivedBytes actions = []
  eof : eofReceived actions = false
  accepted : acceptedBytes actions = payload.take nsent
  recved : recvedTotal actions = nsent
  shut : ∀ result, .proxyShutdown false result ∉ actions

theorem accepts_credited
    (payload : List UInt8) (nsent : Nat) (emissions : List Emission) :
    Accepts payload nsent
      (.proxySend payload (.ok nsent) ::
        .tcpRecved nsent :: emissions.map .emit) := by
  have calm := unaccounted_emissions emissions
  constructor
  · exact calm.received
  · exact calm.eof
  · show _ ++ ([] ++ acceptedBytes _) = _
    rw [calm.accepted, List.append_nil, List.append_nil]
    rfl
  · show 0 + (nsent + recvedTotal _) = nsent
    rw [calm.recved]
    omega
  · intro result member
    rcases List.mem_cons.mp member with same | later
    · cases same
    rcases List.mem_cons.mp later with same | later
    · cases same
    · exact calm.shut result later

/-- An acceptance moves bytes from the queue to the proxy. -/
theorem moves_drain
    {live : Live} {nsent : Nat}
    (bounded : nsent ≤ (firstPayload live.fwd.rcvq).length) :
    Moves live (drain live nsent)
      (.proxySend (firstPayload live.fwd.rcvq) (.ok nsent) ::
        credited live nsent) := by
  have accepts :
      Accepts (firstPayload live.fwd.rcvq) nsent
        (.proxySend (firstPayload live.fwd.rcvq) (.ok nsent) ::
          credited live nsent) :=
    accepts_credited _ nsent _
  constructor
  · exact drain_trace live nsent
  · rw [accepts.accepted, accepts.received, List.append_nil]
    exact take_firstPayload_append live.fwd.rcvq bounded
  · rw [accepts.accepted, accepts.recved, List.length_take,
      Nat.min_eq_left bounded]
  · rw [accepts.eof, Bool.or_false]
    rfl
  · exact accepts.shut
  · rfl
  · rfl

theorem arrived_eof
    {live : Live} {chain : PbufChain} (absent : chain.isNull = true) :
    (arrived live chain).fwd = { live.fwd with lwipeof := true } := by
  simp [arrived, Live.modifyFwd, Live.record, absent]

theorem arrived_data
    {live : Live} {chain : PbufChain} (present : chain.isNull = false) :
    (arrived live chain).fwd = enqueueReceived live.fwd chain := by
  simp [arrived, Live.modifyFwd, Live.record, present]

theorem bytes_enqueueReceived (fwd : TcpForward) (chain : PbufChain) :
    (enqueueReceived fwd chain).rcvq.bytes =
      fwd.rcvq.bytes ++ chain.bytes := by
  unfold enqueueReceived
  split
  · next absent =>
      simp [PbufChain.bytes_eq_nil_of_isNull absent]
  · simp

/-- An arrival is appended to the queue, or ends the stream. -/
theorem moves_arrived (live : Live) (chain : PbufChain) :
    Moves live (arrived live chain) [.lwipReceived chain] := by
  have accepted : acceptedBytes [.lwipReceived chain] = [] := rfl
  have received :
      receivedBytes [.lwipReceived chain] = chain.bytes :=
    List.append_nil _
  have ends :
      eofReceived [.lwipReceived chain] = chain.isNull :=
    Bool.or_false _
  have unshut :
      ∀ result, .proxyShutdown false result ∉
        [Action.lwipReceived chain] := by
    intro result member
    cases List.mem_singleton.mp member
  cases absent : chain.isNull with
  | true =>
      have fwd : (arrived live chain).fwd = _ := arrived_eof absent
      refine ⟨rfl, ?_, rfl, ?_, unshut, ?_, rfl⟩
      · rw [accepted, received, fwd,
          PbufChain.bytes_eq_nil_of_isNull absent, List.nil_append,
          List.append_nil]
      · rw [ends, fwd, absent, Bool.or_true]
      · rw [fwd]
  | false =>
      have fwd : (arrived live chain).fwd = _ := arrived_data absent
      refine ⟨rfl, ?_, rfl, ?_, unshut, ?_, rfl⟩
      · rw [accepted, received, fwd, bytes_enqueueReceived,
          List.nil_append]
      · rw [ends, fwd, absent, Bool.or_false]
        rfl
      · rw [fwd]
        rfl

/-! ## The half-close -/

/-- A failed half-close changes no account. -/
theorem Intact.shutFailed
    {live : Live} (holds : Intact live)
    (setting : live.env.noProxyHalfClose = false) (errno : Errno) :
    Intact (live.record [.proxyShutdown false (.err errno)]) := by
  have accepted :
      acceptedBytes [.proxyShutdown false (.err errno)] = [] :=
    rfl
  constructor
  · simpa [Live.record, accepted, receivedBytes, receivedBy]
      using holds.bytes
  · simpa [Live.record, accepted, recvedTotal, recvedBy]
      using holds.recved
  · simpa [Live.record, eofReceived, endsReceipt] using holds.eof
  · intro member
    apply holds.shut
    simpa [Live.record] using member
  · apply throughout_append_free holds.order
    intro action member before shuts
    rw [shuts] at member
    simp at member
  · intro forbidden
    have same : live.env.noProxyHalfClose = true := forbidden
    rw [setting] at same
    cases same

/-- Once all was accepted the half-close may be passed on. -/
theorem Intact.eofShut
    {live : Live} (holds : Intact live)
    (setting : live.env.noProxyHalfClose = false)
    (empty : live.fwd.rcvq.isNull = true)
    (due : eofDue live.fwd = true) :
    Intact (eofSent (live.record [.proxyShutdown false .ok])) := by
  simp only [eofDue, Bool.and_eq_true, Bool.not_eq_true'] at due
  have all :
      acceptedBytes live.env.trace = receivedBytes live.env.trace := by
    have bytes := holds.bytes
    rwa [PbufChain.bytes_eq_nil_of_isNull empty,
      List.append_nil] at bytes
  have permitted :
      shutPermitted live.env.trace (.proxyShutdown false .ok) := by
    intro _
    refine ⟨holds.eof.trans due.1, all, ?_⟩
    intro before
    rw [holds.shut before] at due
    cases due.2
  constructor
  · simpa [eofSent, Live.modifyFwd, Live.record, acceptedBytes,
      acceptedBy, receivedBytes, receivedBy] using holds.bytes
  · simpa [eofSent, Live.modifyFwd, Live.record, acceptedBytes,
      acceptedBy, recvedTotal, recvedBy] using holds.recved
  · simpa [eofSent, Live.modifyFwd, Live.record, eofReceived,
      endsReceipt] using holds.eof
  · intro _
    rfl
  · exact throughout_concat.mpr ⟨holds.order, permitted⟩
  · intro forbidden
    have same : live.env.noProxyHalfClose = true := forbidden
    rw [setting] at same
    cases same

theorem Intact.eofDisabled
    {live : Live} (holds : Intact live) :
    Intact (eofSent live) :=
  ⟨holds.bytes, holds.recved, holds.eof, fun _ => rfl, holds.order,
    holds.setting⟩

/-! ## Whole runs -/

theorem Intact.quiet
    {live next : Live} (holds : Intact live)
    (same : Unmoved live next)
    (trace : next.env.trace = live.env.trace) :
    Intact next := by
  refine holds.neutral same (trace.trans (List.append_nil _).symm) ?_
  intro action member
  cases member

/-- One neutral action preserves the invariant. -/
theorem Intact.acts
    {live next : Live} (holds : Intact live)
    (same : Unmoved live next) {action : Action}
    (trace : next.env.trace = live.env.trace ++ [action])
    (calm : Neutral action) :
    Intact next := by
  refine holds.neutral same trace ?_
  intro member inside
  rw [List.mem_singleton.mp inside]
  exact calm

theorem Intact.output {live : Live} (holds : Intact live) :
    Intact live.output := by
  refine holds.neutral ⟨rfl, rfl, rfl, rfl⟩ rfl ?_
  intro action member
  rcases List.mem_map.mp member with ⟨emission, _, rfl⟩
  exact neutral_emit emission

theorem Intact.offered
    {live : Live} (holds : Intact live)
    (bytes : List UInt8) (err : ErrT) (next : TcpPcb) :
    Intact (offered live bytes err next) := by
  have read : Intact (live.record [.proxyRecv (.data bytes)]) :=
    holds.acts ⟨rfl, rfl, rfl, rfl⟩ rfl (neutral_proxyRecv _)
  exact read.acts ⟨rfl, rfl, rfl, rfl⟩ rfl (neutral_tcpWrite _ _ _)

theorem Intact.feed
    {live : Live} (holds : Intact live)
    (bytes : List UInt8) (next : TcpPcb) :
    Intact (feed live bytes next) := by
  have stored :
      Intact ((TcpOutcomes.offered live bytes .ok next).modifyFwd
        fun fwd => enqueueSent fwd bytes) :=
    (holds.offered bytes .ok next).quiet ⟨rfl, rfl, rfl, rfl⟩ rfl
  exact stored.output

/-- Every small step preserves the invariant. -/
theorem Intact.micro
    (live next : Live) (step : Micro live next) (holds : Intact live) :
    Intact next := by
  cases step with
  | refresh =>
      exact holds.quiet ⟨rfl, rfl, rfl, rfl⟩ rfl
  | evctl mask mode =>
      exact holds.quiet ⟨rfl, rfl, rfl, rfl⟩ rfl
  | recvFailed errno =>
      exact holds.acts ⟨rfl, rfl, rfl, rfl⟩ rfl (neutral_proxyRecv _)
  | feed room filled short written =>
      exact holds.feed _ _
  | proxyEnded room =>
      exact holds.acts ⟨rfl, rfl, rfl, rfl⟩ rfl (neutral_proxyRecv _)
  | shutdown finished =>
      refine holds.neutral ⟨rfl, rfl, rfl, rfl⟩ rfl ?_
      intro action member
      rcases List.mem_cons.mp member with rfl | emits
      · exact neutral_tcpShutdown _
      · rcases List.mem_map.mp emits with ⟨emission, _, rfl⟩
        exact neutral_emit emission
  | sendFailed errno =>
      exact holds.acts ⟨rfl, rfl, rfl, rfl⟩ rfl (neutral_sendFailed _ _)
  | drain queued bounded =>
      exact (moves_drain bounded).intact holds
  | shutFailed setting errno =>
      exact holds.shutFailed setting errno
  | eofShut setting empty due =>
      exact holds.eofShut setting empty due
  | eofDisabled setting empty due =>
      exact holds.eofDisabled
  | ack =>
      exact holds.quiet ⟨rfl, rfl, rfl, rfl⟩ rfl
  | establish =>
      exact holds.acts ⟨rfl, rfl, rfl, rfl⟩ rfl neutral_established
  | output =>
      exact holds.output

/-- The invariant holds where an event begins to be handled. -/
theorem Intact.begun
    {live : Live} (holds : Intact live) (turn : Turn) :
    Intact (begun live turn) := by
  have ready : Intact (readied live turn) :=
    holds.quiet ⟨rfl, rfl, rfl, rfl⟩ rfl
  rcases turn with ⟨event, answers⟩
  cases event with
  | lwip next =>
      exact ready.quiet ⟨rfl, rfl, rfl, rfl⟩ rfl
  | sent len =>
      exact ready.acts ⟨rfl, rfl, rfl, rfl⟩ rfl (neutral_lwipSent _)
  | received chain =>
      exact (moves_arrived _ chain).intact ready
  | err =>
      exact ready
  | handshakeDone =>
      exact ready.quiet ⟨rfl, rfl, rfl, rfl⟩ rfl
  | handshakeFailed =>
      exact ready.quiet ⟨rfl, rfl, rfl, rfl⟩ rfl
  | proxyEvent events =>
      exact ready
  | gcTick =>
      simp only [TcpEvents.begun]
      split
      · exact ready
      · exact ready.quiet ⟨rfl, rfl, rfl, rfl⟩ rfl

theorem intact_newborn (pcb : TcpPcb) (proxy : Proxy) (env : Env) :
    Intact (newborn pcb proxy env) where
  bytes := rfl
  recved := rfl
  eof := rfl
  shut := by
    intro member
    cases member
  order := throughout_nil shutPermitted
  setting := by
    intro forbidden result member
    cases member

theorem reachable_intact
    {world : World} (reachable : forwardSystem.Reachable world) :
    LiveOrDead Intact world :=
  live_invariant
    (fun pcb proxy env _ _ => intact_newborn pcb proxy env)
    (fun _ turn holds _ => holds.begun turn)
    Intact.micro reachable

/--
While the forward is alive, the accepted bytes and the receive queue are the
received bytes, the credits are the accepted bytes, and the half-close comes
once, after everything else, unless it is forbidden.
-/
theorem upstream_integrity
    {world : World} (reachable : forwardSystem.Reachable world)
    {fwd : TcpForward} (alive : world.fwd = some fwd) :
    acceptedBytes world.env.trace ++ fwd.rcvq.bytes =
        receivedBytes world.env.trace ∧
      recvedTotal world.env.trace =
        (acceptedBytes world.env.trace).length ∧
      Throughout shutPermitted world.env.trace ∧
      (world.env.noProxyHalfClose = true →
        ∀ result, .proxyShutdown false result ∉ world.env.trace) := by
  rcases (reachable_intact reachable).of_fwd alive with
    ⟨live, rfl, rfl, _, holds⟩
  exact ⟨holds.bytes, holds.recved, holds.order, holds.setting⟩

/-- An application which sends two bytes and then closes its side. -/
def halfCloseRun : List Turn :=
  let answers : Answers :=
    { recvs := [], sends := [.accept 0, .accept 0], shut := .ok,
      epoll := [], tun := [] }
  [⟨.handshakeDone 0#32, answers⟩,
    ⟨.proxyEvent (epollin ||| epollout), answers⟩,
    ⟨.received (PbufChain.pbufAlloc [1, 2, 3]), answers⟩,
    ⟨.received .null, answers⟩]

theorem upstream_integrity_halfClose :
    ∃ world fwd,
      forwardSystem.Reachable world ∧ world.fwd = some fwd ∧
        acceptedBytes world.env.trace ++ fwd.rcvq.bytes =
          receivedBytes world.env.trace := by
  have passes :
      (forwardSystem.replay sampleStart.world halfCloseRun).map
        (fun world => world.fwd.isSome) = some true := by
    decide +kernel
  rcases reachable_sampleStart.exists_replay passes with
    ⟨world, reachable, test⟩
  rcases Option.isSome_iff_exists.mp test with ⟨fwd, alive⟩
  exact ⟨world, fwd, reachable, alive,
    (upstream_integrity reachable alive).1⟩

end Nsproxy.Core.Upstream
