import Mathlib.Tactic.Common
import Nsproxy.Lib.History
import Nsproxy.Core.TcpEvents

/-!
# From the proxy to the application

The bytes which the proxy delivers are the bytes which `tcp_write` takes.
lwIP refers to them without a copy, so the send queue must hold exactly those
whose acknowledgement was not reported: releasing one earlier would free
memory in use, keeping one longer would leak it.

`tcp_write` is never offered more than `tcp_sndbuf`, and the sending side is
shut down only after the end of the proxy's stream, on an empty queue, and
for good.
-/

namespace Nsproxy.Core.Downstream

open Nsproxy.Lib.History
open Nsproxy.Lib.Transition
open Nsproxy.Lwip.Opts
open Nsproxy.Lwip.Buffers
open Nsproxy.Lwip.TcpOut
open Nsproxy.Lwip.Tcp
open Nsproxy.Lwip.TcpIn
open Nsproxy.Skutils
open Nsproxy.Core.Memory
open Nsproxy.Core.TcpHandlers
open Nsproxy.Core.TcpOutcomes
open Nsproxy.Core.TcpPaths
open Nsproxy.Core.TcpEvents

/-! ## What a history tells about this direction -/

def readBy : Action → List UInt8
  | .proxyRecv (.data bytes) => bytes
  | _ => []

/-- All bytes which `proxy_recv` returned, in order. -/
def readBytes (trace : List Action) : List UInt8 :=
  trace.flatMap readBy

@[simp]
theorem readBytes_append (front back : List Action) :
    readBytes (front ++ back) = readBytes front ++ readBytes back :=
  List.flatMap_append

/--
When `tcp_write` and `tcp_shutdown` may be called: a write is no longer than
`tcp_sndbuf` and comes before any shutdown; a shutdown comes after the end
of the proxy's stream and finds the send queue empty.
-/
def writePermitted (before : List Action) : Action → Prop
  | .tcpWrite data sndbuf _ =>
      data.length ≤ sndbuf ∧ ∀ fwd, .tcpShutdown fwd ∉ before
  | .tcpShutdown fwd =>
      .proxyRecv (.data []) ∈ before ∧ fwd.sndq.isNull = true
  | _ => True

/-- The action has no part in the transfer to the application. -/
structure Neutral (action : Action) : Prop where
  read : readBy action = []
  written : writtenBy action = []
  reported : reportedBy action = 0
  free : Free writePermitted action
  kept : ∀ fwd, action ≠ .tcpShutdown fwd

theorem neutral_emit (emission : Emission) : Neutral (.emit emission) :=
  ⟨rfl, rfl, rfl, fun _ => trivial, by simp⟩

theorem neutral_recvFailed (errno : Errno) :
    Neutral (.proxyRecv (.err errno)) :=
  ⟨rfl, rfl, rfl, fun _ => trivial, by simp⟩

theorem neutral_recvEof : Neutral (.proxyRecv (.data [])) :=
  ⟨rfl, rfl, rfl, fun _ => trivial, by simp⟩

theorem neutral_proxySend
    (offered : List UInt8) (result : Except Errno Nat) :
    Neutral (.proxySend offered result) :=
  ⟨rfl, rfl, rfl, fun _ => trivial, by simp⟩

theorem neutral_tcpRecved (len : Nat) : Neutral (.tcpRecved len) :=
  ⟨rfl, rfl, rfl, fun _ => trivial, by simp⟩

theorem neutral_proxyShutdown (rst : Bool) (result : ShutAnswer) :
    Neutral (.proxyShutdown rst result) :=
  ⟨rfl, rfl, rfl, fun _ => trivial, by simp⟩

theorem neutral_lwipReceived (chain : PbufChain) :
    Neutral (.lwipReceived chain) :=
  ⟨rfl, rfl, rfl, fun _ => trivial, by simp⟩

theorem neutral_established : Neutral .established :=
  ⟨rfl, rfl, rfl, fun _ => trivial, by simp⟩

/-- Neutral actions leave every account of this direction as it was. -/
structure Unaccounted (actions : List Action) : Prop where
  read : readBytes actions = []
  written : writtenBytes actions = []
  reported : reportedTotal actions = 0

theorem unaccounted_of_neutral
    {actions : List Action}
    (calm : ∀ action ∈ actions, Neutral action) :
    Unaccounted actions where
  read :=
    List.flatMap_eq_nil_iff.mpr fun action member =>
      (calm action member).read
  written :=
    List.flatMap_eq_nil_iff.mpr fun action member =>
      (calm action member).written
  reported := by
    apply List.sum_eq_zero
    intro count member
    rcases List.mem_map.mp member with ⟨action, inside, rfl⟩
    exact (calm action inside).reported

/-! ## The invariant -/

/-- What holds of a live connection in the direction to the application. -/
structure Mirrored (live : Live) : Prop where
  read : writtenBytes live.env.trace = readBytes live.env.trace
  queue :
    live.fwd.sndq.bytes =
      (writtenBytes live.env.trace).drop (reportedTotal live.env.trace)
  solid : live.fwd.sndq.Solid
  room : live.pcb.sndBuf ≤ tcpSndBuf
  acked :
    reportedTotal live.env.trace + (tcpSndBuf - live.pcb.sndBuf) ≤
      (writtenBytes live.env.trace).length
  eof :
    live.fwd.proxyeof = true →
      .proxyRecv (.data []) ∈ live.env.trace
  shut :
    ∀ fwd, .tcpShutdown fwd ∈ live.env.trace →
      live.fwd.proxyeof = true
  order : Throughout writePermitted live.env.trace

/-- The fields of a connection which this direction uses are the same. -/
structure Unmoved (live next : Live) : Prop where
  sndq : next.fwd.sndq = live.fwd.sndq
  sndBuf : next.pcb.sndBuf = live.pcb.sndBuf
  proxyeof : next.fwd.proxyeof = live.fwd.proxyeof

/-- Neutral actions preserve the invariant. -/
theorem Mirrored.neutral
    {live next : Live} (holds : Mirrored live)
    (same : Unmoved live next) {actions : List Action}
    (trace : next.env.trace = live.env.trace ++ actions)
    (calm : ∀ action ∈ actions, Neutral action) :
    Mirrored next := by
  have nothing := unaccounted_of_neutral calm
  have written :
      writtenBytes next.env.trace = writtenBytes live.env.trace := by
    rw [trace, writtenBytes_append, nothing.written, List.append_nil]
  have reported :
      reportedTotal next.env.trace = reportedTotal live.env.trace := by
    rw [trace, reportedTotal_append, nothing.reported, Nat.add_zero]
  constructor
  · rw [written, trace, readBytes_append, nothing.read,
      List.append_nil]
    exact holds.read
  · rw [same.sndq, written, reported]
    exact holds.queue
  · rw [same.sndq]
    exact holds.solid
  · rw [same.sndBuf]
    exact holds.room
  · rw [same.sndBuf, written, reported]
    exact holds.acked
  · rw [same.proxyeof, trace]
    intro ended
    exact List.mem_append_left _ (holds.eof ended)
  · rw [same.proxyeof, trace]
    intro fwd member
    rcases List.mem_append.mp member with old | new
    · exact holds.shut fwd old
    · exact absurd rfl ((calm _ new).kept fwd)
  · rw [trace]
    exact throughout_append_free holds.order
      fun action member => (calm action member).free

theorem Mirrored.quiet
    {live next : Live} (holds : Mirrored live)
    (same : Unmoved live next)
    (trace : next.env.trace = live.env.trace) :
    Mirrored next := by
  refine holds.neutral same (trace.trans (List.append_nil _).symm) ?_
  intro action member
  cases member

/-- One neutral action preserves the invariant. -/
theorem Mirrored.acts
    {live next : Live} (holds : Mirrored live)
    (same : Unmoved live next) {action : Action}
    (trace : next.env.trace = live.env.trace ++ [action])
    (calm : Neutral action) :
    Mirrored next := by
  refine holds.neutral same trace ?_
  intro member inside
  rw [List.mem_singleton.mp inside]
  exact calm

/-! ## The calls to lwIP -/

theorem sndBuf_output (live : Live) :
    live.output.pcb.sndBuf = live.pcb.sndBuf := by
  rcases emits_tcpOutput live.env.inputPcb (live.env.tun.headD [])
      live.pcb with
    ⟨_, _, _, _, _, _, _, _, emitted⟩
  show (tcpOutput _ _ live.pcb).2.1.sndBuf = _
  rw [emitted]

theorem sndBuf_recved (live : Live) (len : Nat) :
    (live.recved len).pcb.sndBuf = live.pcb.sndBuf := by
  rcases (credits_tcpRecved live.env.inputPcb (live.env.tun.headD [])
      live.pcb len).1 with
    ⟨_, _, _, _, _, _, _, _, _, _, credited⟩
  show (tcpRecved _ _ live.pcb len).1.sndBuf = _
  rw [credited]

theorem sndBuf_shutdown (live : Live) :
    live.shutdown.pcb.sndBuf = live.pcb.sndBuf := by
  rcases sendsFin_tcpShutdown live.env.inputPcb
      (live.env.tun.headD []) live.pcb with
    ⟨_, _, _, _, _, _, _, _, _, _, _, closing⟩
  show (tcpShutdown _ _ live.pcb).1.sndBuf = _
  rw [closing]

theorem neutral_emissions
    {emissions : List Emission} {action : Action}
    (member : action ∈ emissions.map .emit) :
    Neutral action := by
  rcases List.mem_map.mp member with ⟨emission, _, rfl⟩
  exact neutral_emit emission

theorem Mirrored.output {live : Live} (holds : Mirrored live) :
    Mirrored live.output :=
  holds.neutral ⟨rfl, sndBuf_output live, rfl⟩ rfl
    fun _ member => neutral_emissions member

theorem Mirrored.drain {live : Live} (holds : Mirrored live)
    (nsent : Nat) :
    Mirrored (drain live nsent) := by
  have sent :
      Mirrored
        ((live.record
          [.proxySend (firstPayload live.fwd.rcvq)
            (.ok nsent)]).modifyFwd
          fun fwd =>
            { fwd with rcvq := fwd.rcvq.pbufFreeHeader nsent }) :=
    holds.acts ⟨rfl, rfl, rfl⟩ rfl (neutral_proxySend _ _)
  refine sent.neutral ⟨rfl, sndBuf_recved _ nsent, rfl⟩ rfl ?_
  intro action member
  rcases List.mem_cons.mp member with rfl | emits
  · exact neutral_tcpRecved nsent
  · exact neutral_emissions emits

/-- Once the proxy's stream ended and all is acknowledged. -/
theorem Mirrored.shutdown {live : Live} (holds : Mirrored live)
    (finished : proxyFinished live.fwd = true) :
    Mirrored live.shutdown := by
  simp only [proxyFinished, Bool.and_eq_true] at finished
  have permitted :
      writePermitted live.env.trace (.tcpShutdown live.fwd) :=
    ⟨holds.eof finished.1, finished.2⟩
  have called :
      Mirrored (live.record [.tcpShutdown live.fwd]) := by
    constructor
    · simpa [Live.record, writtenBytes, writtenBy, readBytes, readBy]
        using holds.read
    · simpa [Live.record, writtenBytes, writtenBy, reportedTotal,
        reportedBy] using holds.queue
    · exact holds.solid
    · exact holds.room
    · simpa [Live.record, writtenBytes, writtenBy, reportedTotal,
        reportedBy] using holds.acked
    · intro ended
      exact List.mem_append_left _ (holds.eof ended)
    · intro _ _
      exact finished.1
    · exact throughout_concat.mpr ⟨holds.order, permitted⟩
  have trace :
      live.shutdown.env.trace =
        (live.env.trace ++ [.tcpShutdown live.fwd]) ++
          (tcpShutdown live.env.inputPcb (live.env.tun.headD [])
            live.pcb).2.map .emit :=
    List.append_cons live.env.trace _ _
  exact called.neutral ⟨rfl, sndBuf_shutdown live, rfl⟩ trace
    fun _ member => neutral_emissions member

/-! ## The steps which move data -/

theorem bytes_enqueueSent
    (fwd : TcpForward) {bytes : List UInt8}
    (short : bytes.length < 65536) :
    (enqueueSent fwd bytes).sndq.bytes = fwd.sndq.bytes ++ bytes := by
  unfold enqueueSent
  split
  · next absent =>
      simp [PbufChain.bytes_eq_nil_of_isNull absent,
        PbufChain.bytes_pbufAlloc short]
  · simp [PbufChain.bytes_pbufAlloc short]

theorem solid_enqueueSent
    {fwd : TcpForward} (solid : fwd.sndq.Solid)
    {bytes : List UInt8} (filled : bytes ≠ []) :
    (enqueueSent fwd bytes).sndq.Solid := by
  unfold enqueueSent
  split
  · exact PbufChain.solid_pbufAlloc filled
  · exact solid.pbufCat (PbufChain.solid_pbufAlloc filled)

/-- The loop condition leaves room for any chunk it reads. -/
theorem mayRead_room
    {fwd : TcpForward} {pcb : TcpPcb}
    (room : mayRead fwd pcb = true) :
    fwd.proxyeof = false ∧ pcb.mss < pcb.tcpSndbuf ∧
      pcb.sndQueuelen ≤ tcpSndQueuelen / 2 := by
  simpa [mayRead, and_assoc] using room

theorem tcpSndbuf_le (pcb : TcpPcb) : pcb.tcpSndbuf ≤ pcb.sndBuf :=
  Nat.min_le_left _ _

/-- A successful write takes its bytes from the send buffer. -/
theorem sndBuf_tcpWrite
    {pcb next : TcpPcb} {data : List UInt8}
    (written : tcpWrite pcb data = .ok (.ok, next)) :
    next.sndBuf = pcb.sndBuf - data.length := by
  rcases tcpWrite_cases written with ⟨_, _, _, rfl⟩ | ⟨failed, _⟩
  · rfl
  · exact absurd rfl failed

/-- A chunk goes to lwIP and to the send queue alike. -/
theorem Mirrored.feed
    {live : Live} (holds : Mirrored live)
    {bytes : List UInt8} {next : TcpPcb}
    (may : mayRead live.fwd live.pcb = true)
    (filled : bytes ≠ [])
    (short : bytes.length ≤ live.pcb.mss)
    (written : tcpWrite live.pcb bytes = .ok (.ok, next)) :
    Mirrored (feed live bytes next) := by
  rcases mayRead_room may with ⟨open_, wide, _⟩
  have fits : bytes.length ≤ live.pcb.tcpSndbuf :=
    Nat.le_of_lt (Nat.lt_of_le_of_lt short wide)
  have inside : bytes.length ≤ live.pcb.sndBuf :=
    Nat.le_trans fits (tcpSndbuf_le live.pcb)
  have small : bytes.length < 65536 := by
    have bound := Nat.le_trans short live.pcb.mss_le
    exact Nat.lt_of_le_of_lt bound (by decide)
  have unshut : ∀ fwd, .tcpShutdown fwd ∉ live.env.trace := by
    intro fwd member
    rw [holds.shut fwd member] at open_
    cases open_
  apply Mirrored.output
  have writtenNow :
      writtenBytes
          (live.env.trace ++ [Action.proxyRecv (.data bytes)] ++
            [Action.tcpWrite bytes live.pcb.tcpSndbuf .ok]) =
        writtenBytes live.env.trace ++ bytes := by
    simp [writtenBytes, writtenBy]
  have reportedNow :
      reportedTotal
          (live.env.trace ++ [Action.proxyRecv (.data bytes)] ++
            [Action.tcpWrite bytes live.pcb.tcpSndbuf .ok]) =
        reportedTotal live.env.trace := by
    simp [reportedTotal, reportedBy]
  have acked := holds.acked
  have room := holds.room
  constructor
  · show writtenBytes (_ ++ [_] ++ [_]) = _
    rw [writtenNow, holds.read]
    simp [offered, Live.record, Live.modifyFwd, Live.modifyPcb,
      readBytes, readBy]
  · show (enqueueSent live.fwd bytes).sndq.bytes =
      (writtenBytes (_ ++ [_] ++ [_])).drop
        (reportedTotal (_ ++ [_] ++ [_]))
    rw [writtenNow, reportedNow, bytes_enqueueSent live.fwd small,
      holds.queue, List.drop_append_of_le_length (by omega)]
  · exact solid_enqueueSent holds.solid filled
  · show next.sndBuf ≤ tcpSndBuf
    rw [sndBuf_tcpWrite written]
    omega
  · show reportedTotal (_ ++ [_] ++ [_]) +
        (tcpSndBuf - next.sndBuf) ≤
      (writtenBytes (_ ++ [_] ++ [_])).length
    rw [writtenNow, reportedNow, sndBuf_tcpWrite written,
      List.length_append]
    omega
  · intro ended
    have same : live.fwd.proxyeof = true := ended
    rw [open_] at same
    cases same
  · intro fwd member
    have longer :
        Action.tcpShutdown fwd ∈
          live.env.trace ++ [Action.proxyRecv (.data bytes)] ++
            [Action.tcpWrite bytes live.pcb.tcpSndbuf .ok] :=
      member
    exact absurd (by simpa using longer) (unshut fwd)
  · have read :
        Throughout writePermitted
          (live.env.trace ++ [Action.proxyRecv (.data bytes)]) :=
      throughout_concat.mpr ⟨holds.order, trivial⟩
    refine throughout_concat.mpr ⟨read, fits, ?_⟩
    intro fwd member
    have longer :
        Action.tcpShutdown fwd ∈
          live.env.trace ++ [Action.proxyRecv (.data bytes)] :=
      member
    exact unshut fwd (by simpa using longer)

/-- The end of the proxy's stream is noted. -/
theorem Mirrored.proxyEnded
    {live : Live} (holds : Mirrored live) :
    Mirrored (proxyEnded live) := by
  have read : Mirrored (live.record [.proxyRecv (.data [])]) :=
    holds.acts ⟨rfl, rfl, rfl⟩ rfl neutral_recvEof
  refine ⟨read.read, read.queue, read.solid, read.room, read.acked,
    ?_, fun _ _ => rfl, read.order⟩
  intro _
  exact List.mem_append_right _ (List.mem_singleton.mpr rfl)

/-- A report releases exactly the reported bytes. -/
theorem Mirrored.acknowledged
    {live : Live} (holds : Mirrored live) {len : Nat}
    (due :
      reportedTotal live.env.trace + len +
          (tcpSndBuf - live.pcb.sndBuf) ≤
        (writtenBytes live.env.trace).length) :
    Mirrored (acknowledged live len) := by
  have writtenNow := writtenBytes_lwipSent live.env.trace len
  have reportedNow := reportedTotal_lwipSent live.env.trace len
  constructor
  · show writtenBytes (_ ++ [_]) = _
    rw [writtenNow, holds.read]
    simp [TcpPaths.acknowledged, Live.record, Live.modifyFwd,
      readBytes, readBy]
  · show (live.fwd.sndq.pbufFreeHeader len).bytes =
      (writtenBytes (_ ++ [_])).drop (reportedTotal (_ ++ [_]))
    rw [writtenNow, reportedNow, PbufChain.bytes_pbufFreeHeader,
      holds.queue, List.drop_drop]
  · exact holds.solid.pbufFreeHeader len
  · exact holds.room
  · show reportedTotal (_ ++ [_]) + _ ≤
      (writtenBytes (_ ++ [_])).length
    rw [writtenNow, reportedNow]
    exact due
  · intro ended
    exact List.mem_append_left _ (holds.eof ended)
  · intro fwd member
    apply holds.shut fwd
    simpa [TcpPaths.acknowledged, Live.record, Live.modifyFwd]
      using member
  · exact throughout_concat.mpr ⟨holds.order, trivial⟩

/-- lwIP works on the control block. -/
theorem Mirrored.works
    {live : Live} (holds : Mirrored live) {next : TcpPcb}
    (grows : live.pcb.sndBuf ≤ next.sndBuf)
    (bound : next.sndBuf ≤ tcpSndBuf) :
    Mirrored (live.modifyPcb fun _ => next) := by
  refine ⟨holds.read, holds.queue, holds.solid, bound, ?_, holds.eof,
    holds.shut, holds.order⟩
  have less :
      tcpSndBuf - next.sndBuf ≤ tcpSndBuf - live.pcb.sndBuf :=
    Nat.sub_le_sub_left grows tcpSndBuf
  exact Nat.le_trans (Nat.add_le_add_left less _) holds.acked

/-- What arrives from the application has no part in this direction. -/
theorem Mirrored.arrived
    {live : Live} (holds : Mirrored live) (chain : PbufChain) :
    Mirrored (arrived live chain) := by
  refine holds.acts ⟨?_, rfl, ?_⟩ rfl (neutral_lwipReceived chain)
  · simp only [TcpPaths.arrived, Live.modifyFwd]
    split <;> rfl
  · simp only [TcpPaths.arrived, Live.modifyFwd]
    split <;> rfl

/-! ## Whole runs -/

/-- Every small step preserves the invariant. -/
theorem Mirrored.micro
    (live next : Live) (step : Micro live next)
    (holds : Mirrored live) :
    Mirrored next := by
  cases step with
  | refresh =>
      exact holds.quiet ⟨rfl, rfl, rfl⟩ rfl
  | evctl mask mode =>
      exact holds.quiet ⟨rfl, rfl, rfl⟩ rfl
  | recvFailed errno =>
      exact holds.acts ⟨rfl, rfl, rfl⟩ rfl (neutral_recvFailed _)
  | feed room filled short written =>
      exact holds.feed room filled short written
  | proxyEnded room =>
      exact holds.proxyEnded
  | shutdown finished =>
      exact holds.shutdown finished
  | sendFailed errno =>
      exact holds.acts ⟨rfl, rfl, rfl⟩ rfl (neutral_proxySend _ _)
  | drain queued bounded =>
      exact holds.drain _
  | shutFailed setting errno =>
      exact holds.acts ⟨rfl, rfl, rfl⟩ rfl (neutral_proxyShutdown _ _)
  | eofShut setting empty due =>
      exact holds.acts ⟨rfl, rfl, rfl⟩ rfl (neutral_proxyShutdown _ _)
  | eofDisabled setting empty due =>
      exact holds.quiet ⟨rfl, rfl, rfl⟩ rfl
  | ack =>
      refine holds.quiet ⟨rfl, ?_, rfl⟩ rfl
      show (tcpAck live.pcb).sndBuf = live.pcb.sndBuf
      unfold tcpAck
      split <;> rfl
  | establish =>
      exact holds.acts ⟨rfl, rfl, rfl⟩ rfl neutral_established
  | output =>
      exact holds.output

/-- The invariant holds where an event begins to be handled. -/
theorem Mirrored.begun
    {live : Live} (holds : Mirrored live) {turn : Turn}
    (permitted : enabled live.world turn) :
    Mirrored (begun live turn) := by
  have ready : Mirrored (readied live turn) :=
    holds.quiet ⟨rfl, rfl, rfl⟩ rfl
  rcases turn with ⟨event, answers⟩
  cases event with
  | lwip next =>
      rcases permitted with ⟨pcb, ⟨⟩, moved⟩
      exact ready.works moved.sndBuf_le moved.sndBuf_bound
  | sent len =>
      rcases permitted with ⟨pcb, ⟨⟩, _, due⟩
      exact ready.acknowledged due
  | received chain => exact ready.arrived chain
  | err =>
      exact ready
  | handshakeDone =>
      exact ready.quiet ⟨rfl, rfl, rfl⟩ rfl
  | handshakeFailed =>
      exact ready.quiet ⟨rfl, rfl, rfl⟩ rfl
  | proxyEvent events =>
      exact ready
  | gcTick =>
      simp only [TcpEvents.begun]
      split
      · exact ready
      · exact ready.quiet ⟨rfl, rfl, rfl⟩ rfl

theorem mirrored_newborn
    {pcb : TcpPcb} (fresh : FreshPcb pcb) (proxy : Proxy) (env : Env) :
    Mirrored (newborn pcb proxy env) where
  read := rfl
  queue := rfl
  solid := PbufChain.solid_null
  room := Nat.le_of_eq fresh.sndBuf
  acked := by
    show 0 + (tcpSndBuf - pcb.sndBuf) ≤ 0
    rw [fresh.sndBuf]
    omega
  eof := by
    intro ended
    cases ended
  shut := by
    intro fwd member
    cases member
  order := throughout_nil writePermitted

theorem reachable_mirrored
    {world : World} (reachable : forwardSystem.Reachable world) :
    LiveOrDead Mirrored world :=
  live_invariant
    (fun _ proxy env fresh _ => mirrored_newborn fresh proxy env)
    (fun _ _ holds permitted => holds.begun permitted)
    Mirrored.micro reachable

/--
While the forward is alive, `tcp_write` was given exactly what the proxy
delivered, never more at a time than `tcp_sndbuf`; the send queue holds the
written bytes which were not reported; and the sending side is shut down
only at the end, on an empty queue.
-/
theorem downstream_integrity
    {world : World} (reachable : forwardSystem.Reachable world)
    {fwd : TcpForward} (alive : world.fwd = some fwd) :
    writtenBytes world.env.trace = readBytes world.env.trace ∧
      reportedTotal world.env.trace ≤
        (writtenBytes world.env.trace).length ∧
      fwd.sndq.bytes =
        (writtenBytes world.env.trace).drop
          (reportedTotal world.env.trace) ∧
      (fwd.sndq.isNull = true ↔
        reportedTotal world.env.trace =
          (writtenBytes world.env.trace).length) ∧
      Throughout writePermitted world.env.trace := by
  rcases (reachable_mirrored reachable).of_fwd alive with
    ⟨live, rfl, rfl, _, holds⟩
  have acked := holds.acked
  have bounded :
      reportedTotal live.env.trace ≤
        (writtenBytes live.env.trace).length :=
    Nat.le_trans (Nat.le_add_right _ _) acked
  refine ⟨holds.read, bounded, holds.queue, ?_, holds.order⟩
  rw [holds.solid.isNull_iff_bytes, holds.queue, List.drop_eq_nil_iff]
  exact ⟨fun all => Nat.le_antisymm bounded all,
    fun all => Nat.le_of_eq all.symm⟩

/-- The proxy delivers three bytes, of which the application gets two. -/
def deliveryRun : List Turn :=
  let answers : Answers :=
    { recvs := [.data [7, 8, 9]], sends := [], shut := .ok,
      epoll := [], tun := [] }
  [⟨.handshakeDone 0#32, answers⟩,
    ⟨.proxyEvent (epollin ||| epollout), answers⟩,
    ⟨.lwip
      { sampleStart.pcb with
        proxyestab := true
        state := .established
        sndBuf := tcpSndBuf - 1 },
      answers⟩,
    ⟨.sent 2, answers⟩]

theorem downstream_integrity_delivery :
    ∃ world fwd,
      forwardSystem.Reachable world ∧ world.fwd = some fwd ∧
        fwd.sndq.bytes =
          (writtenBytes world.env.trace).drop
            (reportedTotal world.env.trace) := by
  have passes :
      (forwardSystem.replay sampleStart.world deliveryRun).map
        (fun world => world.fwd.isSome) = some true := by
    decide +kernel
  rcases reachable_sampleStart.exists_replay passes with
    ⟨world, reachable, test⟩
  rcases Option.isSome_iff_exists.mp test with ⟨fwd, alive⟩
  exact ⟨world, fwd, reachable, alive,
    (downstream_integrity reachable alive).2.2.1⟩

end Nsproxy.Core.Downstream
