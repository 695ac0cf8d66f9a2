import Mathlib.Tactic.Common
import Nsproxy.Core.Upstream
import Nsproxy.Core.Downstream

/-!
# No lost wake-up

Between two events, whatever a forwarding connection waits for is bound to
wake it: a filled receive queue by the interest in `EPOLLOUT`, an open proxy
stream by the interest in `EPOLLIN` or by an acknowledgement which is still
due.  The acknowledgement which empties the send queue passes the test of
`tcp_lwip_sent`, although that test is stricter than the one of the read
loop.  A connection which is finished in both directions does not linger.

The kernel is assumed to accept every `epoll_ctl`, and `shutdown` never says
`EAGAIN`.
-/

namespace Nsproxy.Core.WakeUp

open Nsproxy.Lib.Transition
open Nsproxy.Lwip.Opts
open Nsproxy.Lwip.Buffers
open Nsproxy.Lwip.TcpOut
open Nsproxy.Lwip.Tcp
open Nsproxy.Lwip.TcpIn
open Nsproxy.Skutils
open Nsproxy.Core.Memory
open Nsproxy.Core.TcpHandlers
open Nsproxy.Core.TcpOutcomes
open Nsproxy.Core.TcpPaths
open Nsproxy.Core.TcpEvents
open Nsproxy.Core.Upstream (Intact arrived_eof arrived_data)
open Nsproxy.Core.Downstream
  (Mirrored sndBuf_output sndBuf_recved sndBuf_tcpWrite mayRead_room
    tcpSndbuf_le)

/-! ## What holds at every small step -/

/-- The facts about the end of the streams which every step keeps. -/
structure Steady (live : Live) : Prop where
  /-- Before the FIN, an empty send buffer has a short queue. -/
  slack :
    proxyFinished live.fwd = false →
      live.pcb.sndBuf = tcpSndBuf →
        live.pcb.sndQueuelen ≤ tcpSndQueuelen / 2
  /-- The end of the stream is passed on after everything else. -/
  sendeof :
    live.fwd.proxysendeof = true → lwipFinished live.fwd = true

/-- Both directions are in order. -/
structure Sound (live : Live) : Prop where
  intact : Intact live
  mirrored : Mirrored live
  steady : Steady live

/-- The fields about which `Steady` speaks are the same. -/
structure Unmoved (live next : Live) : Prop where
  sndBuf : next.pcb.sndBuf = live.pcb.sndBuf
  sndQueuelen : next.pcb.sndQueuelen = live.pcb.sndQueuelen
  finished : proxyFinished next.fwd = proxyFinished live.fwd
  drained : lwipFinished next.fwd = lwipFinished live.fwd
  sendeof : next.fwd.proxysendeof = live.fwd.proxysendeof

theorem Steady.same
    {live next : Live} (holds : Steady live)
    (same : Unmoved live next) :
    Steady next := by
  constructor
  · rw [same.finished, same.sndBuf, same.sndQueuelen]
    exact holds.slack
  · rw [same.sendeof, same.drained]
    exact holds.sendeof

theorem sndQueuelen_output (live : Live) :
    live.output.pcb.sndQueuelen = live.pcb.sndQueuelen := by
  rcases emits_tcpOutput live.env.inputPcb (live.env.tun.headD [])
      live.pcb with
    ⟨_, _, _, _, _, _, _, _, emitted⟩
  show (tcpOutput _ _ live.pcb).2.1.sndQueuelen = _
  rw [emitted]

theorem sndQueuelen_recved (live : Live) (len : Nat) :
    (live.recved len).pcb.sndQueuelen = live.pcb.sndQueuelen := by
  rcases (credits_tcpRecved live.env.inputPcb (live.env.tun.headD [])
      live.pcb len).1 with
    ⟨_, _, _, _, _, _, _, _, _, _, credited⟩
  show (tcpRecved _ _ live.pcb len).1.sndQueuelen = _
  rw [credited]

/-- A written chunk is missing from the send buffer. -/
theorem Steady.feed
    {live : Live} (holds : Steady live) (mirrored : Mirrored live)
    {bytes : List UInt8} {next : TcpPcb}
    (filled : bytes ≠ [])
    (written : tcpWrite live.pcb bytes = .ok (.ok, next))
    (fits : bytes.length ≤ live.pcb.sndBuf) :
    Steady (feed live bytes next) := by
  have some_byte : 0 < bytes.length := List.length_pos_iff.mpr filled
  have room := mirrored.room
  constructor
  · intro _ full
    have left :
        (TcpOutcomes.feed live bytes next).pcb.sndBuf =
          next.sndBuf :=
      sndBuf_output _
    rw [left, sndBuf_tcpWrite written] at full
    omega
  · exact holds.sendeof

/-- Every small step keeps these facts. -/
theorem Steady.micro
    {live next : Live} (step : Micro live next)
    (mirrored : Mirrored live) (holds : Steady live) :
    Steady next := by
  cases step with
  | refresh =>
      exact holds.same ⟨rfl, rfl, rfl, rfl, rfl⟩
  | evctl mask mode =>
      exact holds.same ⟨rfl, rfl, rfl, rfl, rfl⟩
  | recvFailed errno =>
      exact holds.same ⟨rfl, rfl, rfl, rfl, rfl⟩
  | feed room filled short written =>
      rcases mayRead_room room with ⟨_, wide, _⟩
      have fits := Nat.le_of_lt (Nat.lt_of_le_of_lt short wide)
      exact holds.feed mirrored filled written
        (Nat.le_trans fits (tcpSndbuf_le live.pcb))
  | proxyEnded room =>
      refine ⟨fun _ => holds.slack ?_, holds.sendeof⟩
      rcases mayRead_room room with ⟨open_, _, _⟩
      simp [proxyFinished, open_]
  | shutdown finished =>
      refine ⟨fun unfinished => ?_, holds.sendeof⟩
      have same : proxyFinished live.fwd = false := unfinished
      rw [finished] at same
      cases same
  | sendFailed errno =>
      exact holds.same ⟨rfl, rfl, rfl, rfl, rfl⟩
  | drain queued bounded =>
      constructor
      · intro unfinished full
        have before : live.pcb.sndBuf = tcpSndBuf :=
          (sndBuf_recved _ _).symm.trans full
        have short := holds.slack unfinished before
        exact Nat.le_trans
          (Nat.le_of_eq (sndQueuelen_recved _ _)) short
      · intro passed
        have drained := holds.sendeof passed
        simp [lwipFinished, queued] at drained
  | shutFailed setting errno =>
      exact holds.same ⟨rfl, rfl, rfl, rfl, rfl⟩
  | eofShut setting empty due =>
      refine ⟨holds.slack, fun _ => ?_⟩
      simp only [eofDue, Bool.and_eq_true] at due
      show (live.fwd.lwipeof && live.fwd.rcvq.isNull) = true
      rw [due.1, empty]
      rfl
  | eofDisabled setting empty due =>
      refine ⟨holds.slack, fun _ => ?_⟩
      simp only [eofDue, Bool.and_eq_true] at due
      show (live.fwd.lwipeof && live.fwd.rcvq.isNull) = true
      rw [due.1, empty]
      rfl
  | ack =>
      refine holds.same ⟨?_, ?_, rfl, rfl, rfl⟩
      · show (tcpAck live.pcb).sndBuf = live.pcb.sndBuf
        unfold tcpAck
        split <;> rfl
      · show (tcpAck live.pcb).sndQueuelen = live.pcb.sndQueuelen
        unfold tcpAck
        split <;> rfl
  | establish =>
      exact holds.same ⟨rfl, rfl, rfl, rfl, rfl⟩
  | output =>
      exact holds.same
        ⟨sndBuf_output live, sndQueuelen_output live, rfl, rfl, rfl⟩

theorem Sound.micro
    (live next : Live) (step : Micro live next) (holds : Sound live) :
    Sound next where
  intact := Intact.micro live next step holds.intact
  mirrored := Mirrored.micro live next step holds.mirrored
  steady := Steady.micro step holds.mirrored holds.steady

theorem Steady.acknowledged
    {live : Live} (holds : Steady live) (len : Nat) :
    Steady (acknowledged live len) := by
  refine ⟨fun unfinished => holds.slack ?_, holds.sendeof⟩
  cases finished : proxyFinished live.fwd with
  | false =>
      rfl
  | true =>
      simp only [proxyFinished, Bool.and_eq_true] at finished
      have gone : (live.fwd.sndq.pbufFreeHeader len).isNull = true := by
        rw [PbufChain.isNull_iff] at finished ⊢
        simp [PbufChain.pbufFreeHeader, finished.2, freeHeaderPbufs]
      have still :
          (live.fwd.proxyeof &&
            (live.fwd.sndq.pbufFreeHeader len).isNull) = false :=
        unfinished
      rw [finished.1, gone] at still
      cases still

theorem Steady.begun
    {live : Live} (holds : Steady live) (intact : Intact live)
    {turn : Turn} (permitted : enabled live.world turn) :
    Steady (begun live turn) := by
  have ready : Steady (readied live turn) := ⟨holds.slack, holds.sendeof⟩
  rcases turn with ⟨event, answers⟩
  cases event with
  | lwip next =>
      rcases permitted with ⟨pcb, ⟨⟩, moved⟩
      exact ⟨fun _ => moved.queuelen, ready.sendeof⟩
  | sent len =>
      exact ready.acknowledged len.toNat
  | received chain =>
      rcases permitted with ⟨pcb, _, _, unfinished⟩
      have open_ : live.fwd.lwipeof = false :=
        intact.eof.symm.trans unfinished
      have unpassed : live.fwd.proxysendeof ≠ true := by
        intro passed
        have drained := holds.sendeof passed
        simp [lwipFinished, open_] at drained
      cases absent : chain.isNull with
      | true =>
          have fwd :
              (TcpEvents.begun live ⟨.received chain, answers⟩).fwd =
                { live.fwd with lwipeof := true } :=
            arrived_eof absent
          refine ⟨?_, ?_⟩
          · rw [fwd]
            exact holds.slack
          · rw [fwd]
            intro passed
            exact absurd passed unpassed
      | false =>
          have fwd :
              (TcpEvents.begun live ⟨.received chain, answers⟩).fwd =
                enqueueReceived live.fwd chain :=
            arrived_data absent
          refine ⟨?_, ?_⟩
          · rw [fwd]
            exact holds.slack
          · rw [fwd]
            intro passed
            exact absurd passed unpassed
  | err =>
      exact ready
  | handshakeDone =>
      exact ⟨ready.slack, ready.sendeof⟩
  | handshakeFailed =>
      exact ⟨ready.slack, ready.sendeof⟩
  | proxyEvent events =>
      exact ready
  | gcTick =>
      simp only [TcpEvents.begun]
      split
      · exact ready
      · exact ⟨ready.slack, ready.sendeof⟩

theorem sound_newborn
    {pcb : TcpPcb} (fresh : FreshPcb pcb) (proxy : Proxy) (env : Env) :
    Sound (newborn pcb proxy env) where
  intact := Upstream.intact_newborn pcb proxy env
  mirrored := Downstream.mirrored_newborn fresh proxy env
  steady := by
    refine ⟨fun _ _ => fresh.queuelen, ?_⟩
    intro passed
    cases passed

theorem reachable_sound
    {world : World} (reachable : forwardSystem.Reachable world) :
    LiveOrDead Sound world := by
  refine live_invariant ?_ ?_ Sound.micro reachable
  · intro pcb proxy env fresh _
    exact sound_newborn fresh proxy env
  · intro live turn holds permitted
    exact ⟨holds.intact.begun turn, holds.mirrored.begun permitted,
      holds.steady.begun holds.intact permitted⟩

theorem sound_path
    {live last : Live} (path : Path live last) (holds : Sound live) :
    Sound last :=
  path.preserves Sound.micro holds

/-! ## An empty send queue -/

/-- When the send queue is empty, so is the send buffer of lwIP. -/
theorem sndBuf_of_empty
    {live : Live} (holds : Mirrored live)
    (empty : live.fwd.sndq.isNull = true) :
    live.pcb.sndBuf = tcpSndBuf := by
  have drained := PbufChain.bytes_eq_nil_of_isNull empty
  rw [holds.queue, List.drop_eq_nil_iff] at drained
  have acked := holds.acked
  have room := holds.room
  omega

theorem tcpSndbuf_of_empty
    {live : Live} (holds : Mirrored live)
    (empty : live.fwd.sndq.isNull = true) :
    live.pcb.tcpSndbuf = 65535 := by
  rw [TcpPcb.tcpSndbuf, sndBuf_of_empty holds empty]
  decide

/-- On an empty send queue the read loop goes on. -/
theorem mayRead_of_empty
    {live : Live} (holds : Sound live)
    (open_ : live.fwd.proxyeof = false)
    (empty : live.fwd.sndq.isNull = true) :
    mayRead live.fwd live.pcb = true := by
  have unfinished : proxyFinished live.fwd = false := by
    simp [proxyFinished, open_]
  have short :=
    holds.steady.slack unfinished
      (sndBuf_of_empty holds.mirrored empty)
  have wide : live.pcb.mss < 65535 :=
    Nat.lt_of_le_of_lt live.pcb.mss_le (by decide)
  simp [mayRead, open_, tcpSndbuf_of_empty holds.mirrored empty, wide,
    short]

/-- The acknowledgement which empties the send queue asks for more. -/
theorem asksMore_of_emptied
    {live : Live} (holds : Sound live) {len : UInt16}
    {answers : Answers}
    (permitted : enabled live.world ⟨.sent len, answers⟩)
    (waiting : live.fwd.sndq.isNull = false)
    (emptied :
      (live.fwd.sndq.pbufFreeHeader len.toNat).isNull = true) :
    asksMore live.pcb := by
  rcases permitted with ⟨pcb, ⟨⟩, _, due⟩
  have reported : Mirrored (acknowledged live len.toNat) :=
    holds.mirrored.acknowledged due
  have unfinished : proxyFinished live.fwd = false := by
    simp [proxyFinished, waiting]
  have acked : (acknowledged live len.toNat).pcb.sndBuf = tcpSndBuf :=
    sndBuf_of_empty reported emptied
  have all : live.pcb.sndBuf = tcpSndBuf := acked
  refine ⟨?_, holds.steady.slack unfinished all⟩
  rw [TcpPcb.tcpSndbuf, all]
  decide

/-! ## The interest in events -/

/-- The kernel will accept the requests of this event. -/
def Accepting (live : Live) : Prop :=
  ∀ accepted ∈ live.env.epoll, accepted = true

theorem Accepting.headD {live : Live} (accepting : Accepting live) :
    live.env.epoll.headD true = true := by
  unfold Accepting at accepting
  cases pending : live.env.epoll with
  | nil =>
      rfl
  | cons first rest =>
      rw [pending] at accepting
      exact accepting first List.mem_cons_self

theorem Accepting.evctl
    {live : Live} (accepting : Accepting live)
    (mask : EventMask) (mode : EvMode) :
    Accepting (live.evctl mask mode) :=
  fun accepted member => accepting accepted (List.mem_of_mem_tail member)

theorem evctl_interest
    {live : Live} (accepting : Accepting live)
    (forwarding : live.proxy.phase = .forwarding)
    (mask : EventMask) (mode : EvMode) :
    (live.evctl mask mode).proxy.events =
      newEvents live.proxy.events mask mode := by
  show (live.proxy.evctl _ mask mode).events = _
  rw [accepting.headD]
  exact Proxy.evctl_events forwarding mask mode

/-- Nothing is waited for which cannot wake the connection. -/
structure Awake (live : Live) : Prop where
  writable :
    live.fwd.rcvq.isNull = false →
      live.proxy.events.meets epollout = true
  readable :
    live.fwd.proxyeof = false →
      live.proxy.events.meets epollin = true ∨
        live.fwd.sndq.isNull = false
  passed :
    lwipFinished live.fwd = true → live.fwd.proxysendeof = true
  unfinished :
    proxyFinished live.fwd = false ∨ lwipFinished live.fwd = false

/-- The same forward and the same interest. -/
theorem Awake.same
    {live next : Live} (awake : Awake live)
    (fwd :
      next.fwd.rcvq = live.fwd.rcvq ∧ next.fwd.sndq = live.fwd.sndq ∧
        next.fwd.proxyeof = live.fwd.proxyeof ∧
        next.fwd.lwipeof = live.fwd.lwipeof ∧
        next.fwd.proxysendeof = live.fwd.proxysendeof)
    (events : next.proxy.events = live.proxy.events) :
    Awake next := by
  rcases fwd with ⟨rcvq, sndq, proxyeof, lwipeof, proxysendeof⟩
  constructor
  · rw [rcvq, events]
    exact awake.writable
  · rw [proxyeof, sndq, events]
    exact awake.readable
  · rw [lwipFinished, lwipeof, rcvq, proxysendeof]
    exact awake.passed
  · rw [proxyFinished, proxyeof, sndq, lwipFinished, lwipeof, rcvq]
    exact awake.unfinished

/-! ## Reading -/

/-- What the read loop leaves alone. -/
structure Fed (live last : Live) : Prop where
  proxy : last.proxy = live.proxy
  epoll : last.env.epoll = live.env.epoll
  rcvq : last.fwd.rcvq = live.fwd.rcvq
  lwipeof : last.fwd.lwipeof = live.fwd.lwipeof
  proxysendeof : last.fwd.proxysendeof = live.fwd.proxysendeof

theorem fed_of_feeds {live last : Live} (feeds : Feeds live last) :
    Fed live last := by
  induction feeds with
  | refl live =>
      exact ⟨rfl, rfl, rfl, rfl, rfl⟩
  | step room filled short written rest induction =>
      exact ⟨induction.proxy, induction.epoll, induction.rcvq,
        induction.lwipeof, induction.proxysendeof⟩

theorem Fed.left
    {live last stop : Live} (fed : Fed live last)
    (left : InputLeft last stop) :
    Fed live stop := by
  cases left with
  | full stopped =>
      exact fed
  | ended room forwarding =>
      exact ⟨fed.proxy, fed.epoll, fed.rcvq, fed.lwipeof,
        fed.proxysendeof⟩

theorem Fed.accepting
    {live last : Live} (fed : Fed live last)
    (accepting : Accepting live) :
    Accepting last := by
  unfold Accepting
  rw [fed.epoll]
  exact accepting

/-- What the waiting for the proxy rests on before a read. -/
structure BeforeRead (live : Live) : Prop where
  writable :
    live.fwd.rcvq.isNull = false →
      live.proxy.events.meets epollout = true
  passed :
    lwipFinished live.fwd = true → live.fwd.proxysendeof = true

/-- How the read loop leaves a connection awake. -/
theorem Fed.awake
    {live last : Live} (fed : Fed live last)
    (before : BeforeRead live) {next : Live}
    (fwd : next.fwd = last.fwd)
    (out :
      next.proxy.events.meets epollout =
        last.proxy.events.meets epollout)
    (readable :
      last.fwd.proxyeof = false →
        next.proxy.events.meets epollin = true ∨
          last.fwd.sndq.isNull = false)
    (unfinished :
      proxyFinished last.fwd = false ∨ lwipFinished last.fwd = false) :
    Awake next := by
  constructor
  · rw [fwd, out, fed.rcvq, fed.proxy]
    exact before.writable
  · rw [fwd]
    exact readable
  · rw [fwd, lwipFinished, fed.lwipeof, fed.rcvq, fed.proxysendeof]
    exact before.passed
  · rw [fwd]
    exact unfinished

/-- After the read loop stopped for lack of room, data is on its way. -/
theorem waiting_of_left
    {last stop : Live} (holds : Sound last)
    (left : InputLeft last stop)
    (open_ : stop.fwd.proxyeof = false) :
    stop.fwd.sndq.isNull = false := by
  cases left with
  | full stopped =>
      cases empty : last.fwd.sndq.isNull with
      | false =>
          rfl
      | true =>
          rw [mayRead_of_empty holds open_ empty] at stopped
          cases stopped
  | ended room forwarding =>
      cases open_

/-- `tcp_proxy_input` leaves a connection awake. -/
theorem awake_read
    {live mid : Live} (holds : Sound live)
    (accepting : Accepting live)
    (forwarding : live.proxy.phase = .forwarding)
    (before : BeforeRead live)
    (outcome : ProxyInput live .ok mid.world) :
    Awake mid := by
  have fresh : BeforeRead (refreshed live) :=
    ⟨before.writable, before.passed⟩
  have refreshes : Path live (refreshed live) := .single (.refresh live)
  generalize ended : mid.world = world at outcome
  cases outcome with
  | @dry last feeds room still =>
      cases Live.world_injective ended
      have fed := fed_of_feeds feeds
      have interest :
          (proxyDry last).proxy.events =
            newEvents last.proxy.events epollin .set :=
        evctl_interest (fed.accepting accepting) still epollin .set
      rcases mayRead_room room with ⟨open_, _, _⟩
      refine fed.awake fresh rfl ?_ ?_ ?_
      · rw [interest]
        exact meets_set_other _ (by decide)
      · intro _
        rw [interest]
        exact .inl (meets_set_self _ (by decide))
      · exact .inl (by simp [proxyFinished, open_])
  | @stays last stop feeds left unfinished =>
      cases Live.world_injective ended
      have fed := (fed_of_feeds feeds).left left
      have still : stop.proxy.phase = .forwarding := by
        rw [fed.proxy]
        exact forwarding
      have lastHolds : Sound last :=
        sound_path (refreshes.trans (Feeds.path feeds)) holds
      refine fed.awake fresh rfl ?_ ?_ (.inl unfinished)
      · rw [evctl_interest (fed.accepting accepting) still]
        exact meets_clr_other _ (by decide)
      · intro open_
        exact .inr (waiting_of_left lastHolds left open_)
  | @halfCloses last stop feeds left finished pending =>
      cases Live.world_injective ended
      have fed := (fed_of_feeds feeds).left left
      have still : stop.proxy.phase = .forwarding := by
        rw [fed.proxy]
        exact forwarding
      refine fed.awake fresh rfl ?_ ?_ (.inr pending)
      · show (stop.evctl epollin .clr).proxy.events.meets epollout = _
        rw [evctl_interest (fed.accepting accepting) still]
        exact meets_clr_other _ (by decide)
      · intro open_
        simp [proxyFinished, open_] at finished

/-! ## Writing -/

/-- What the write loop leaves alone. -/
structure Drained (live last : Live) : Prop where
  proxy : last.proxy = live.proxy
  epoll : last.env.epoll = live.env.epoll
  sndq : last.fwd.sndq = live.fwd.sndq
  proxyeof : last.fwd.proxyeof = live.fwd.proxyeof
  proxysendeof : last.fwd.proxysendeof = live.fwd.proxysendeof

theorem drained_of_drains {live last : Live} (drains : Drains live last) :
    Drained live last := by
  induction drains with
  | refl live =>
      exact ⟨rfl, rfl, rfl, rfl, rfl⟩
  | step queued forwarding bounded progress rest induction =>
      exact ⟨induction.proxy, induction.epoll, induction.sndq,
        induction.proxyeof, induction.proxysendeof⟩

theorem Drained.accepting
    {live last : Live} (drained : Drained live last)
    (accepting : Accepting live) :
    Accepting last := by
  unfold Accepting
  rw [drained.epoll]
  exact accepting

/-- What the waiting for the application rests on before a write. -/
structure BeforeWrite (live : Live) : Prop where
  readable :
    live.fwd.proxyeof = false →
      live.proxy.events.meets epollin = true ∨
        live.fwd.sndq.isNull = false
  open_ :
    live.fwd.proxysendeof = true → proxyFinished live.fwd = false

/-- How the write loop leaves a connection awake. -/
theorem Drained.awake
    {live last : Live} (drained : Drained live last)
    (before : BeforeWrite live) {next : Live}
    (sndq : next.fwd.sndq = last.fwd.sndq)
    (proxyeof : next.fwd.proxyeof = last.fwd.proxyeof)
    (inn :
      next.proxy.events.meets epollin =
        last.proxy.events.meets epollin)
    (writable :
      next.fwd.rcvq.isNull = false →
        next.proxy.events.meets epollout = true)
    (passed :
      lwipFinished next.fwd = true → next.fwd.proxysendeof = true)
    (unfinished :
      proxyFinished next.fwd = false ∨
        lwipFinished next.fwd = false) :
    Awake next := by
  refine ⟨writable, ?_, passed, unfinished⟩
  rw [proxyeof, sndq, inn, drained.proxyeof, drained.sndq,
    drained.proxy]
  exact before.readable

/-- A passed half-close changes neither queue nor the interest. -/
theorem passesEof_frame
    {live next : Live} (passes : PassesEof live next) :
    next.fwd.sndq = live.fwd.sndq ∧
      next.fwd.proxyeof = live.fwd.proxyeof ∧
      next.fwd.rcvq = live.fwd.rcvq ∧
      next.fwd.proxysendeof = true ∧
      next.proxy = (outputIdle live).proxy := by
  cases passes with
  | disabled setting =>
      exact ⟨rfl, rfl, rfl, rfl, rfl⟩
  | shut setting forwarding =>
      exact ⟨rfl, rfl, rfl, rfl, rfl⟩

/-- `tcp_proxy_output` leaves a connection awake. -/
theorem awake_write
    {live last : Live}
    (accepting : Accepting live)
    (forwarding : live.proxy.phase = .forwarding)
    {shut : ShutAnswer} (decided : shut ≠ .err .eagain)
    (before : BeforeWrite live)
    (outcome : ProxyOutput live shut .ok last.world) :
    Awake last := by
  have fresh : BeforeWrite (refreshed live) :=
    ⟨before.readable, before.open_⟩
  generalize ended : last.world = world at outcome
  cases outcome with
  | @full last drains queued still =>
      cases Live.world_injective ended
      have drained := drained_of_drains drains
      have interest :
          (proxyFull last).proxy.events =
            newEvents last.proxy.events epollout .set :=
        evctl_interest (drained.accepting accepting) still epollout .set
      refine drained.awake fresh rfl rfl ?_ ?_ ?_ ?_
      · rw [interest]
        exact meets_set_other _ (by decide)
      · intro _
        rw [interest]
        exact meets_set_self _ (by decide)
      · intro finished
        have same : lwipFinished last.fwd = true := finished
        simp [lwipFinished, queued] at same
      · refine .inr ?_
        show lwipFinished last.fwd = false
        simp [lwipFinished, queued]
  | @idle last drains empty nothing =>
      cases Live.world_injective ended
      have drained := drained_of_drains drains
      have still : last.proxy.phase = .forwarding := by
        rw [drained.proxy]
        exact forwarding
      have told :
          lwipFinished last.fwd = true →
            last.fwd.proxysendeof = true := by
        intro finished
        simp only [lwipFinished, Bool.and_eq_true] at finished
        simpa [eofDue, finished.1] using nothing
      refine drained.awake fresh rfl rfl ?_ ?_ told ?_
      · show (last.evctl epollout .clr).proxy.events.meets epollin = _
        rw [evctl_interest (drained.accepting accepting) still]
        exact meets_clr_other _ (by decide)
      · intro queued
        have same : last.fwd.rcvq.isNull = false := queued
        rw [empty] at same
        cases same
      · cases finished : lwipFinished last.fwd with
        | false =>
            exact .inr finished
        | true =>
            refine .inl ?_
            have sent := told finished
            rw [drained.proxysendeof] at sent
            have open_ := fresh.open_ sent
            show proxyFinished last.fwd = false
            rw [proxyFinished, drained.proxyeof, drained.sndq]
            exact open_
  | @shutAgain last drains empty due setting again =>
      have drained := drained_of_drains drains
      have still : last.proxy.phase = .forwarding := by
        rw [drained.proxy]
        exact forwarding
      simp only [Proxy.shutdown, still] at again
      exact absurd again decided
  | @halfCloses last next drains empty due passes unfinished =>
      cases Live.world_injective ended
      have drained := drained_of_drains drains
      have still : last.proxy.phase = .forwarding := by
        rw [drained.proxy]
        exact forwarding
      rcases passesEof_frame passes with
        ⟨sndq, proxyeof, rcvq, sent, proxy⟩
      refine drained.awake fresh sndq proxyeof ?_ ?_ ?_
        (.inl unfinished)
      · rw [proxy]
        show (last.evctl epollout .clr).proxy.events.meets epollin = _
        rw [evctl_interest (drained.accepting accepting) still]
        exact meets_clr_other _ (by decide)
      · intro queued
        rw [rcvq, empty] at queued
        cases queued
      · intro _
        exact sent

/-! ## Whole events -/

theorem Awake.beforeRead {live : Live} (awake : Awake live) :
    BeforeRead live :=
  ⟨awake.writable, awake.passed⟩

/-- What was passed on is finished in its direction only. -/
theorem open_of_sendeof
    {live : Live} (awake : Awake live) (steady : Steady live)
    (sent : live.fwd.proxysendeof = true) :
    proxyFinished live.fwd = false := by
  rcases awake.unfinished with unfinished | unfinished
  · exact unfinished
  · rw [steady.sendeof sent] at unfinished
    cases unfinished

theorem Awake.beforeWrite
    {live : Live} (awake : Awake live) (steady : Steady live) :
    BeforeWrite live :=
  ⟨awake.readable, open_of_sendeof awake steady⟩

theorem accepting_path
    {live last : Live} (path : Path live last)
    (accepting : Accepting live) :
    Accepting last := by
  refine path.preserves ?_ accepting
  intro before after step holds
  cases step with
  | evctl _ mask mode => exact holds.evctl mask mode
  | _ => exact holds

/-- The event which finishes with a connection leaves it awake. -/
theorem awake_established
    {live : Live} (awake : Awake live) :
    Awake (establishedLive live) := by
  unfold establishedLive
  split
  · exact awake
  · exact awake.same ⟨rfl, rfl, rfl, rfl, rfl⟩ rfl

/-- `tcp_proxy_io_event` leaves a connection awake. -/
theorem awake_ioEvent
    {live last : Live} (holds : Sound live)
    (accepting : Accepting live)
    (forwarding : live.proxy.phase = .forwarding)
    {shut : ShutAnswer} (decided : shut ≠ .err .eagain)
    (awake : Awake live) {events : EventMask} {err : ErrT}
    (outcome : IoEvent live events shut err last.world) :
    Awake last := by
  generalize ended : last.world = world at outcome
  cases outcome with
  | readEnds ready outcome failed =>
      subst ended
      exact absurd (ProxyInput.ends outcome).ok_of_alive failed
  | writeEnds read ready outcome failed =>
      subst ended
      exact absurd (ProxyOutput.ends outcome).ok_of_alive failed
  | @goesOn mid final read written =>
      cases Live.world_injective ended
      apply awake_established
      have midAwake : Awake mid := by
        cases read with
        | skipped clear =>
            exact awake
        | read ready outcome =>
            exact awake_read holds accepting forwarding
              awake.beforeRead outcome
      have midHolds : Sound mid := sound_path read.path holds
      have midForwarding : mid.proxy.phase = .forwarding :=
        read.path.phase.trans forwarding
      cases written with
      | skipped clear =>
          exact midAwake
      | written ready outcome =>
          exact awake_write (accepting_path read.path accepting)
            midForwarding decided
            (midAwake.beforeWrite midHolds.steady) outcome

/-- `tcp_lwip_sent` leaves a connection awake. -/
theorem awake_sent
    {live last : Live} (holds : Sound live)
    (accepting : Accepting live)
    (forwarding : live.proxy.phase = .forwarding)
    (awake : Awake live) {len : UInt16} {answers : Answers}
    (permitted : enabled live.world ⟨.sent len, answers⟩)
    {err : ErrT}
    (outcome : LwipSent live len.toNat err last.world) :
    Awake last := by
  have reported : Sound (acknowledged live len.toNat) := by
    rcases permitted with ⟨pcb, ⟨⟩, _, due⟩
    exact ⟨holds.intact.acts ⟨rfl, rfl, rfl, rfl⟩ rfl
        (Upstream.neutral_lwipSent _),
      holds.mirrored.acknowledged due,
      holds.steady.acknowledged len.toNat⟩
  generalize ended : last.world = world at outcome
  cases outcome with
  | reads asks outcome =>
      subst ended
      have fine := (ProxyInput.ends outcome).ok_of_alive
      subst fine
      have before : BeforeRead (acknowledged live len.toNat) :=
        ⟨awake.writable, awake.passed⟩
      exact awake_read reported accepting forwarding before outcome
  | waits short =>
      cases Live.world_injective ended
      have left :
          live.fwd.sndq.isNull = false →
            (live.fwd.sndq.pbufFreeHeader len.toNat).isNull = false := by
        intro waiting
        cases emptied :
            (live.fwd.sndq.pbufFreeHeader len.toNat).isNull with
        | false =>
            rfl
        | true =>
            exact absurd
              (asksMore_of_emptied holds permitted waiting emptied)
              short
      refine ⟨awake.writable, ?_, awake.passed, ?_⟩
      · intro open_
        rcases awake.readable open_ with interest | waiting
        · exact .inl interest
        · exact .inr (left waiting)
      · rcases awake.unfinished with unfinished | unfinished
        · refine .inl ?_
          show (live.fwd.proxyeof &&
            (live.fwd.sndq.pbufFreeHeader len.toNat).isNull) = false
          simp only [proxyFinished, Bool.and_eq_false_iff]
            at unfinished ⊢
          rcases unfinished with open_ | waiting
          · exact .inl open_
          · exact .inr (left waiting)
        · exact .inr unfinished

/-- `tcp_lwip_received` leaves a connection awake. -/
theorem awake_received
    {live last : Live} (holds : Sound live)
    (accepting : Accepting live)
    (forwarding : live.proxy.phase = .forwarding)
    {shut : ShutAnswer} (decided : shut ≠ .err .eagain)
    (awake : Awake live) {chain : PbufChain} {err : ErrT}
    (outcome : LwipReceived live chain shut err last.world) :
    Awake last := by
  have before : BeforeWrite (arrived live chain) := by
    have ready := awake.beforeWrite holds.steady
    cases absent : chain.isNull with
    | true =>
        have fwd : (arrived live chain).fwd = _ := arrived_eof absent
        constructor
        · rw [fwd]
          exact ready.readable
        · rw [fwd]
          exact ready.open_
    | false =>
        have fwd : (arrived live chain).fwd = _ := arrived_data absent
        constructor
        · rw [fwd]
          exact ready.readable
        · rw [fwd]
          exact ready.open_
  generalize ended : last.world = world at outcome
  cases outcome with
  | acks outcome =>
      cases Live.world_injective ended
      have acceptingNow : Accepting (arrived live chain) := accepting
      have written :=
        awake_write acceptingNow forwarding decided before outcome
      exact written.same ⟨rfl, rfl, rfl, rfl, rfl⟩ rfl
  | destroys outcome failed =>
      subst ended
      exact absurd (ProxyOutput.ends outcome).ok_of_alive failed

/-! ## Whole runs -/

/-- Nothing happened yet to a connection during the handshake. -/
structure Untouched (live : Live) : Prop where
  rcvq : live.fwd.rcvq.isNull = true
  proxyeof : live.fwd.proxyeof = false
  lwipeof : live.fwd.lwipeof = false
  silent : live.pcb.proxyestab = false

/-- What holds between two events. -/
structure Vigilant (live : Live) : Prop where
  untouched : live.proxy.phase = .handshake → Untouched live
  awake : live.proxy.phase = .forwarding → Awake live

/-- The kernel accepts every request during the event. -/
structure Obliging (turn : Turn) : Prop where
  epoll : ∀ accepted ∈ turn.answers.epoll, accepted = true
  shut : turn.answers.shut ≠ .err .eagain

instance (turn : Turn) : Decidable (Obliging turn) :=
  decidable_of_iff
    ((∀ accepted ∈ turn.answers.epoll, accepted = true) ∧
      turn.answers.shut ≠ .err .eagain)
    ⟨fun ⟨epoll, shut⟩ => ⟨epoll, shut⟩,
      fun ⟨epoll, shut⟩ => ⟨epoll, shut⟩⟩

/-- The proxy of a new connection is watched as it asked to be. -/
def Watched (world : World) : Prop :=
  ∀ proxy ∈ world.proxy, proxy.phase = .forwarding →
    proxy.events = epollin ||| epollout

/-- Forwarded connections on an obliging kernel. -/
def obligingSystem : System Fault World Turn :=
  forwardSystem.restrict Watched fun _ turn => Obliging turn

instance (world : World) (turn : Turn) :
    Decidable (obligingSystem.enabled world turn) :=
  inferInstanceAs (Decidable (enabled world turn ∧ Obliging turn))

/-- A connection which starts to forward is awake. -/
theorem awake_started
    {live : Live} (untouched : Untouched live)
    (events : live.proxy.events = epollin ||| epollout) :
    Awake live := by
  constructor
  · intro queued
    rw [untouched.rcvq] at queued
    cases queued
  · intro _
    rw [events]
    exact .inl (by decide)
  · simp [lwipFinished, untouched.lwipeof]
  · exact .inr (by simp [lwipFinished, untouched.lwipeof])

theorem vigilant_newborn
    {pcb : TcpPcb} (fresh : FreshPcb pcb)
    {proxy : Proxy} {env : Env}
    (watched : Watched (newborn pcb proxy env).world) :
    Vigilant (newborn pcb proxy env) := by
  have untouched : Untouched (newborn pcb proxy env) :=
    ⟨rfl, rfl, rfl, fresh.proxyestab⟩
  exact ⟨fun _ => untouched,
    fun forwarding =>
      awake_started untouched (watched proxy rfl forwarding)⟩

/-- The handshake is over and the interest is the full one. -/
theorem vigilant_forwarding
    {live : Live} (untouched : Untouched live)
    (accepting : Accepting live) (interest : EventMask) :
    Vigilant (forwardingLive live interest) := by
  refine ⟨?_, fun _ => awake_started ?_ ?_⟩
  · intro wrong
    cases wrong
  · exact ⟨untouched.rcvq, untouched.proxyeof, untouched.lwipeof,
      untouched.silent⟩
  · show skutilsEvctl (live.env.epoll.headD true) interest
      (epollout ||| epollin) .upd = _
    rw [accepting.headD, skutilsEvctl_accepted]
    rfl

/-- A handler does not change the phase it was called in. -/
theorem vigilant_of_phase
    {live last : Live} {ended : ErrT}
    (ends : Ends live ended last.world)
    (passed : live.proxy.phase ≠ .handshake)
    (awake : live.proxy.phase = .forwarding → Awake last) :
    Vigilant last := by
  have phase := ends.path_of_alive.phase
  constructor
  · intro handshake
    exact absurd (phase.symm.trans handshake) passed
  · intro forwarding
    exact awake (phase.symm.trans forwarding)

/-- No callback comes before the handshake is over. -/
theorem phase_of_callsBack
    {live : Live} (vigilant : Vigilant live)
    (calls : callsBack live.pcb = true) :
    live.proxy.phase ≠ .handshake := by
  intro handshake
  have silent := (vigilant.untouched handshake).silent
  simp [callsBack, silent] at calls

theorem Sound.readied
    {live : Live} (holds : Sound live) (turn : Turn) :
    Sound (readied live turn) where
  intact := holds.intact.quiet ⟨rfl, rfl, rfl, rfl⟩ rfl
  mirrored := holds.mirrored.quiet ⟨rfl, rfl, rfl⟩ rfl
  steady := holds.steady.same ⟨rfl, rfl, rfl, rfl, rfl⟩

/-- Every event leaves a living connection vigilant. -/
theorem vigilant_step
    {live last : Live} (holds : Sound live) (vigilant : Vigilant live)
    {turn : Turn} (permitted : enabled live.world turn)
    (obliging : Obliging turn) {err : ErrT}
    (outcome : Outcome live turn err last.world) :
    Vigilant last := by
  have ready := holds.readied turn
  have accepting : Accepting (readied live turn) := obliging.epoll
  have shut := obliging.shut
  generalize ended : last.world = world at outcome
  cases outcome with
  | lwip =>
      cases Live.world_injective ended
      rcases permitted with ⟨pcb, ⟨⟩, moved⟩
      constructor
      · intro handshake
        have untouched := vigilant.untouched handshake
        exact ⟨untouched.rcvq, untouched.proxyeof, untouched.lwipeof,
          moved.proxyestab.trans untouched.silent⟩
      · intro forwarding
        exact (vigilant.awake forwarding).same
          ⟨rfl, rfl, rfl, rfl, rfl⟩ rfl
  | @sent len answers _ _ outcome =>
      subst ended
      have passed : live.proxy.phase ≠ .handshake := by
        rcases permitted with ⟨pcb, ⟨⟩, calls, _⟩
        exact phase_of_callsBack vigilant calls
      have due :
          enabled (readied live ⟨.sent len, answers⟩).world
            ⟨.sent len, answers⟩ :=
        permitted
      refine vigilant_of_phase outcome.ends passed ?_
      intro forwarding
      have awake := vigilant.awake forwarding
      exact awake_sent ready accepting forwarding
        ⟨awake.writable, awake.readable, awake.passed,
          awake.unfinished⟩ due outcome
  | received outcome =>
      subst ended
      have passed : live.proxy.phase ≠ .handshake := by
        rcases permitted with ⟨pcb, ⟨⟩, calls, _⟩
        exact phase_of_callsBack vigilant calls
      refine vigilant_of_phase outcome.ends passed ?_
      intro forwarding
      have awake := vigilant.awake forwarding
      exact awake_received ready accepting forwarding shut
        ⟨awake.writable, awake.readable, awake.passed,
          awake.unfinished⟩ outcome
  | lost =>
      cases congrArg World.fwd ended
  | handshakeDone =>
      cases Live.world_injective ended
      rcases permitted with ⟨proxy, ⟨⟩, handshake⟩
      have untouched := vigilant.untouched handshake
      refine vigilant_forwarding ?_ accepting _
      exact ⟨untouched.rcvq, untouched.proxyeof, untouched.lwipeof,
        untouched.silent⟩
  | handshakeFailed outcome =>
      subst ended
      have phase := outcome.ends.path_of_alive.phase
      constructor
      · intro handshake
        rw [phase] at handshake
        cases handshake
      · intro forwarding
        rw [phase] at forwarding
        cases forwarding
  | proxyEvent outcome =>
      subst ended
      rcases permitted with ⟨proxy, ⟨⟩, forwarding⟩
      have awake := vigilant.awake forwarding
      have passed : live.proxy.phase ≠ .handshake := by
        rw [forwarding]
        simp
      refine vigilant_of_phase outcome.ends passed fun _ => ?_
      exact awake_ioEvent ready accepting forwarding shut
        ⟨awake.writable, awake.readable, awake.passed,
          awake.unfinished⟩ outcome
  | expired zero =>
      cases congrArg World.fwd ended
  | ticked positive =>
      cases Live.world_injective ended
      constructor
      · intro handshake
        have untouched := vigilant.untouched handshake
        exact ⟨untouched.rcvq, untouched.proxyeof, untouched.lwipeof,
          untouched.silent⟩
      · intro forwarding
        exact (vigilant.awake forwarding).same
          ⟨rfl, rfl, rfl, rfl, rfl⟩ rfl

theorem reachable_vigilant
    {world : World} (reachable : obligingSystem.Reachable world) :
    LiveOrDead Vigilant world := by
  induction reachable with
  | start first =>
      rcases first with ⟨⟨pcb, proxy, env, freshPcb, _, made⟩, watched⟩
      rw [coreTcpNew_some] at made
      cases made
      exact .inl ⟨_, rfl, ⟨rfl, rfl⟩, vigilant_newborn freshPcb watched⟩
  | @next source turn target before permitted handled induction =>
      have sourceSound := reachable_sound before.of_restrict
      rcases induction with ⟨live, rfl, linked, vigilant⟩ | dead
      · rcases sourceSound with ⟨same, alike, _, holds⟩ | dead
        · cases Live.world_injective alike
          rcases step_ok handled with ⟨err, ran⟩
          rcases handle_cases linked turn with
            ⟨err, world, run, outcome⟩ | failed
          · rw [ran] at run
            cases run
            have where_ :=
              outcome.handled.liveOrDead (fun _ _ _ _ => trivial)
                linked trivial
            rcases where_ with ⟨last, rfl, lastLinked, _⟩ | dead
            · exact .inl ⟨last, rfl, lastLinked,
                vigilant_step holds vigilant permitted.1 permitted.2
                  outcome⟩
            · exact .inr dead
          · rw [ran] at failed
            cases failed
        · cases dead.fwd
      · exact .inr (dead_step dead permitted.1 handled)

/--
On an obliging kernel, a living connection whose proxy is forwarding waits
for nothing that cannot wake it.  The last conjunct says that the
acknowledgement which empties the send queue enters `tcp_proxy_input`.
-/
theorem no_lost_wakeup
    {world : World} (reachable : obligingSystem.Reachable world)
    {fwd : TcpForward} (alive : world.fwd = some fwd)
    {proxy : Proxy} (connected : world.proxy = some proxy)
    (forwarding : proxy.phase = .forwarding) :
    (fwd.rcvq.isNull = false → proxy.events.meets epollout = true) ∧
      (fwd.proxyeof = false →
        proxy.events.meets epollin = true ∨
          fwd.sndq.isNull = false) ∧
      (fwd.lwipeof = true → fwd.rcvq.isNull = true →
        fwd.proxysendeof = true) ∧
      ¬(fwd.proxyeof = true ∧ fwd.lwipeof = true ∧
        fwd.sndq.isNull = true ∧ fwd.rcvq.isNull = true) ∧
      ∀ len answers,
        enabled world ⟨.sent len, answers⟩ →
          fwd.sndq.isNull = false →
            (fwd.sndq.pbufFreeHeader len.toNat).isNull = true →
              ∀ pcb ∈ world.pcb, asksMore pcb := by
  rcases (reachable_vigilant reachable).of_fwd alive with
    ⟨live, rfl, rfl, _, vigilant⟩
  rcases (reachable_sound reachable.of_restrict).of_fwd alive with
    ⟨same, alike, _, _, holds⟩
  cases Live.world_injective alike
  cases connected
  have awake := vigilant.awake forwarding
  refine ⟨awake.writable, awake.readable, ?_, ?_, ?_⟩
  · intro ended empty
    exact awake.passed (by simp [lwipFinished, ended, empty])
  · rintro ⟨proxyeof, lwipeof, sent, received⟩
    rcases awake.unfinished with unfinished | unfinished
    · simp [proxyFinished, proxyeof, sent] at unfinished
    · simp [lwipFinished, lwipeof, received] at unfinished
  · rintro len answers permitted waiting emptied pcb ⟨⟩
    exact asksMore_of_emptied holds permitted waiting emptied

/-- The application sends while the proxy accepts nothing. -/
def stalledRun : List Turn :=
  let answers : Answers :=
    { recvs := [], sends := [], shut := .ok, epoll := [], tun := [] }
  [⟨.handshakeDone 0#32, answers⟩,
    ⟨.proxyEvent (epollin ||| epollout), answers⟩,
    ⟨.received (PbufChain.pbufAlloc [1, 2, 3]), answers⟩]

theorem no_lost_wakeup_stalled :
    ∃ world fwd proxy,
      obligingSystem.Reachable world ∧ world.fwd = some fwd ∧
        world.proxy = some proxy ∧
        (fwd.rcvq.isNull = false →
          proxy.events.meets epollout = true) := by
  have start : obligingSystem.Reachable sampleStart.world := by
    refine .start ⟨⟨_, _, _, freshPcb_tcpListenInput _ _ _, .inl rfl,
      coreTcpNew_some _ _ _⟩, ?_⟩
    rintro proxy ⟨⟩ forwarding
    cases forwarding
  have passes :
      (obligingSystem.replay sampleStart.world stalledRun).map
        (fun world =>
          world.fwd.isSome &&
            world.proxy.map Proxy.phase == some .forwarding) =
        some true := by
    decide +kernel
  rcases start.exists_replay passes with ⟨world, reachable, test⟩
  simp only [Bool.and_eq_true, beq_iff_eq] at test
  rcases Option.isSome_iff_exists.mp test.1 with ⟨fwd, alive⟩
  rcases Option.map_eq_some_iff.mp test.2 with
    ⟨proxy, connected, forwarding⟩
  exact ⟨world, fwd, proxy, reachable, alive, connected,
    (no_lost_wakeup reachable alive connected forwarding).1⟩

end Nsproxy.Core.WakeUp
