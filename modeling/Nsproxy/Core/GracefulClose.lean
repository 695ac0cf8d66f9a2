import Mathlib.Tactic.Common
import Nsproxy.Lib.Transition
import Nsproxy.Lwip.Sending
import Nsproxy.Core.WakeUp
import Nsproxy.Core.PcbLiveness

/-!
# Graceful closes

A close is graceful when the application ends its stream with a FIN, the
proxy ends its own with an EOF, and no call fails.  As long as no call fails,
the forward should last until the close is graceful and both sides have
everything, and reset neither.

It does, unless lwIP gives the connection up before.  The error callback also
reports a normal end: the application acknowledges the last FIN, the proxy
has not taken all bytes yet, and the forward is destroyed with the rest.
-/

namespace Nsproxy.Core.GracefulClose

open Nsproxy.Lib.Transition
open Nsproxy.Lwip.Opts
open Nsproxy.Lwip.Buffers
open Nsproxy.Lwip.TcpOut
open Nsproxy.Lwip.Tcp
open Nsproxy.Lwip.TcpIn
open Nsproxy.Lwip.TcpTimers
open Nsproxy.Lwip.Queues
open Nsproxy.Lwip.Upkeep
open Nsproxy.Lwip.Sending
open Nsproxy.Skutils
open Nsproxy.Core.Memory
open Nsproxy.Core.TcpHandlers
open Nsproxy.Core.TcpOutcomes
open Nsproxy.Core.TcpPaths
open Nsproxy.Core.TcpEvents
open Nsproxy.Core.TcpStack
open Nsproxy.Core.Upstream (Intact acceptedBytes intact_newborn)
open Nsproxy.Core.Downstream (Mirrored readBytes mirrored_newborn
  mayRead_room tcpSndbuf_le sndBuf_output sndBuf_recved sndBuf_shutdown
  sndBuf_tcpWrite)
open Nsproxy.Core.WakeUp (sndBuf_of_empty)
open Nsproxy.Core.PcbLiveness (Unclosed Lives)

/-! ## Graceful histories -/

/-- The error which a call of the proxy returned. -/
def failsBy : Action → Option Errno
  | .proxyRecv (.err errno) => some errno
  | .proxySend _ (.error errno) => some errno
  | .proxyShutdown _ (.err errno) => some errno
  | _ => none

/-- No call of the proxy fails for good. -/
def Unfailing (trace : List Action) : Prop :=
  ∀ action ∈ trace, ∀ errno ∈ failsBy action, errno = .eagain

/-- Both sides end in order, and no call of the proxy fails for good. -/
structure Graceful (trace : List Action) : Prop where
  fin : eofReceived trace = true
  eof : .proxyRecv (.data []) ∈ trace
  calls : Unfailing trace

/-- The action resets one of the two sides. -/
def resets : Action → Bool
  | .tcpAbort | .emit .reset | .proxyShutdown true _ => true
  | _ => false

/-- Neither side is reset. -/
def Unreset (trace : List Action) : Prop :=
  ∀ action ∈ trace, resets action = false

/-- Both sides have everything, and neither was reset. -/
structure Delivered (trace : List Action) : Prop where
  accepted : acceptedBytes trace = receivedBytes trace
  acknowledged : reportedTotal trace = (readBytes trace).length
  unreset : Unreset trace

theorem Unreset.append
    {front back : List Action} (first : Unreset front)
    (second : Unreset back) :
    Unreset (front ++ back) := by
  intro action member
  rcases List.mem_append.mp member with old | new
  · exact first action old
  · exact second action new

theorem unreset_single
    (action : Action) (calm : resets action = false) :
    Unreset [action] := by
  intro other member
  rw [List.mem_singleton.mp member]
  exact calm

theorem unreset_emissions
    {emissions : List Emission} (calm : Emission.reset ∉ emissions) :
    Unreset (emissions.map .emit) := by
  intro action member
  rcases List.mem_map.mp member with ⟨emission, inside, rfl⟩
  cases emission with
  | segment seg => rfl
  | emptyAck => rfl
  | reset => exact absurd inside calm

/-- Small steps reset nothing. -/
theorem Unreset.micro
    {live next : Live} (step : Micro live next)
    (holds : Unreset live.env.trace) :
    Unreset next.env.trace := by
  have output (other : Live) (before : Unreset other.env.trace) :
      Unreset other.output.env.trace :=
    before.append
      (unreset_emissions (reset_notMem_tcpOutput _ _ other.pcb))
  cases step with
  | refresh => exact holds
  | evctl mask mode => exact holds
  | recvFailed errno => exact holds.append (unreset_single _ rfl)
  | feed room filled short written =>
      apply output
      exact (holds.append (unreset_single _ rfl)).append
        (unreset_single _ rfl)
  | proxyEnded room => exact holds.append (unreset_single _ rfl)
  | shutdown finished =>
      have called := holds.append
        (unreset_single (.tcpShutdown live.fwd) rfl)
      have emitted := called.append
        (unreset_emissions
          (reset_notMem_tcpShutdown live.env.inputPcb
            (live.env.tun.headD []) live.pcb))
      rw [List.append_assoc] at emitted
      exact emitted
  | sendFailed errno => exact holds.append (unreset_single _ rfl)
  | @drain nsent queued bounded =>
      have called := (holds.append
        (unreset_single
          (.proxySend (firstPayload live.fwd.rcvq) (.ok nsent)) rfl)).append
        (unreset_single (.tcpRecved nsent) rfl)
      have emitted := called.append
        (unreset_emissions
          (reset_notMem_tcpRecved live.env.inputPcb
            (live.env.tun.headD []) live.pcb nsent))
      rw [List.append_assoc] at emitted
      exact emitted
  | shutFailed setting errno => exact holds.append (unreset_single _ rfl)
  | eofShut setting empty due => exact holds.append (unreset_single _ rfl)
  | eofDisabled setting empty due => exact holds
  | ack => exact holds
  | establish => exact holds.append (unreset_single _ rfl)
  | output => exact output live holds

/-! ## What the handlers conserve -/

/-- What the small steps of a handler leave as it is. -/
structure Conserves (live next : Live) : Prop where
  mss : next.pcb.mss = live.pcb.mss
  sndWndMax : next.pcb.sndWndMax = live.pcb.sndWndMax
  reported :
    reportedTotal next.env.trace = reportedTotal live.env.trace
  /-- What is written is taken from the send buffer. -/
  written :
    (writtenBytes next.env.trace).length + next.pcb.sndBuf =
      (writtenBytes live.env.trace).length + live.pcb.sndBuf

theorem Conserves.refl (live : Live) : Conserves live live :=
  ⟨rfl, rfl, rfl, rfl⟩

theorem Conserves.trans
    {first second third : Live}
    (before : Conserves first second) (after : Conserves second third) :
    Conserves first third where
  mss := after.mss.trans before.mss
  sndWndMax := after.sndWndMax.trans before.sndWndMax
  reported := after.reported.trans before.reported
  written := after.written.trans before.written

/-- The sizes in a control block, which most functions leave alone. -/
structure SameSizes (before after : TcpPcb) : Prop where
  mss : after.mss = before.mss
  sndWndMax : after.sndWndMax = before.sndWndMax
  sndBuf : after.sndBuf = before.sndBuf

theorem sameSizes_tcpOutput
    (inputPcb : Bool) (writes : List Bool) (pcb : TcpPcb) :
    SameSizes pcb (tcpOutput inputPcb writes pcb).2.1 := by
  rcases emits_tcpOutput inputPcb writes pcb with
    ⟨_, _, _, _, _, _, _, _, emitted⟩
  rw [emitted]
  exact ⟨rfl, rfl, rfl⟩

theorem sameSizes_tcpRecved
    (inputPcb : Bool) (writes : List Bool) (pcb : TcpPcb) (len : Nat) :
    SameSizes pcb (tcpRecved inputPcb writes pcb len).1 := by
  rcases (credits_tcpRecved inputPcb writes pcb len).1 with
    ⟨_, _, _, _, _, _, _, _, _, _, credited⟩
  rw [credited]
  exact ⟨rfl, rfl, rfl⟩

theorem sameSizes_tcpShutdown
    (inputPcb : Bool) (writes : List Bool) (pcb : TcpPcb) :
    SameSizes pcb (tcpShutdown inputPcb writes pcb).1 := by
  rcases sendsFin_tcpShutdown inputPcb writes pcb with
    ⟨_, _, _, _, _, _, _, _, _, _, _, closing⟩
  rw [closing]
  exact ⟨rfl, rfl, rfl⟩

theorem sameSizes_tcpAck (pcb : TcpPcb) : SameSizes pcb (tcpAck pcb) := by
  unfold tcpAck
  split
  · exact ⟨rfl, rfl, rfl⟩
  · exact ⟨rfl, rfl, rfl⟩

/-- The action is no report and no successful write. -/
def Aside (action : Action) : Prop :=
  reportedBy action = 0 ∧ writtenBy action = []

theorem aside_emissions
    (emissions : List Emission) :
    ∀ action ∈ emissions.map Action.emit, Aside action := by
  intro action member
  rcases List.mem_map.mp member with ⟨emission, _, rfl⟩
  exact ⟨rfl, rfl⟩

theorem aside_cons
    {action : Action} {rest : List Action} (first : Aside action)
    (others : ∀ action ∈ rest, Aside action) :
    ∀ other ∈ action :: rest, Aside other := by
  intro other member
  rcases List.mem_cons.mp member with rfl | later
  · exact first
  · exact others other later

theorem SameSizes.conserves
    {live next : Live} (same : SameSizes live.pcb next.pcb)
    {actions : List Action}
    (trace : next.env.trace = live.env.trace ++ actions)
    (calm : ∀ action ∈ actions, Aside action) :
    Conserves live next := by
  have reported : reportedTotal actions = 0 := by
    apply List.sum_eq_zero
    intro count member
    rcases List.mem_map.mp member with ⟨action, inside, rfl⟩
    exact (calm action inside).1
  have written : writtenBytes actions = [] :=
    List.flatMap_eq_nil_iff.mpr fun action member =>
      (calm action member).2
  refine ⟨same.mss, same.sndWndMax, ?_, ?_⟩
  · rw [trace, reportedTotal_append, reported, Nat.add_zero]
  · rw [trace, writtenBytes_append, written, List.append_nil, same.sndBuf]

theorem conserves_acts
    {live next : Live} {action : Action}
    (same : SameSizes live.pcb next.pcb)
    (trace : next.env.trace = live.env.trace ++ [action])
    (calm : Aside action) :
    Conserves live next :=
  same.conserves trace (aside_cons calm fun _ member => nomatch member)

theorem conserves_quiet
    {live next : Live} (pcb : next.pcb = live.pcb)
    (trace : next.env.trace = live.env.trace) :
    Conserves live next := by
  refine ⟨by rw [pcb], by rw [pcb], by rw [trace], ?_⟩
  rw [pcb, trace]

theorem conserves_output (live : Live) : Conserves live live.output :=
  (sameSizes_tcpOutput live.env.inputPcb (live.env.tun.headD [])
    live.pcb).conserves rfl (aside_emissions _)

theorem conserves_feed
    {live : Live} {bytes : List UInt8} {next : TcpPcb}
    (fits : bytes.length ≤ live.pcb.sndBuf)
    (written : tcpWrite live.pcb bytes = .ok (.ok, next)) :
    Conserves live (feed live bytes next) := by
  refine Conserves.trans ?_ (conserves_output _)
  rcases tcpWrite_cases written with ⟨_, _, _, rfl⟩ | ⟨failed, _⟩
  · refine ⟨rfl, rfl, ?_, ?_⟩
    · show reportedTotal (_ ++ [_] ++ [_]) = _
      simp [reportedTotal, reportedBy]
    · show (writtenBytes (_ ++ [_] ++ [_])).length +
          (live.pcb.sndBuf - bytes.length) = _
      simp only [writtenBytes_append, List.length_append]
      simp only [writtenBytes, writtenBy, List.flatMap_cons,
        List.flatMap_nil, List.append_nil, List.length_nil]
      omega
  · exact absurd rfl failed

theorem Conserves.micro
    {live next : Live} (step : Micro live next) :
    Conserves live next := by
  cases step with
  | refresh => exact conserves_quiet rfl rfl
  | evctl mask mode => exact conserves_quiet rfl rfl
  | recvFailed errno =>
      exact conserves_acts ⟨rfl, rfl, rfl⟩ rfl ⟨rfl, rfl⟩
  | feed room filled short written =>
      rcases mayRead_room room with ⟨_, wide, _⟩
      have fits := Nat.le_of_lt (Nat.lt_of_le_of_lt short wide)
      exact conserves_feed (Nat.le_trans fits (tcpSndbuf_le live.pcb))
        written
  | proxyEnded room =>
      exact conserves_acts ⟨rfl, rfl, rfl⟩ rfl ⟨rfl, rfl⟩
  | shutdown finished =>
      exact (sameSizes_tcpShutdown _ _ _).conserves rfl
        (aside_cons ⟨rfl, rfl⟩ (aside_emissions _))
  | sendFailed errno =>
      exact conserves_acts ⟨rfl, rfl, rfl⟩ rfl ⟨rfl, rfl⟩
  | drain queued bounded =>
      refine (sameSizes_tcpRecved _ _ _ _).conserves
        (List.append_assoc _ _ _) ?_
      exact aside_cons ⟨rfl, rfl⟩
        (aside_cons ⟨rfl, rfl⟩ (aside_emissions _))
  | shutFailed setting errno =>
      exact conserves_acts ⟨rfl, rfl, rfl⟩ rfl ⟨rfl, rfl⟩
  | eofShut setting empty due =>
      exact conserves_acts ⟨rfl, rfl, rfl⟩ rfl ⟨rfl, rfl⟩
  | eofDisabled setting empty due => exact conserves_quiet rfl rfl
  | ack =>
      exact (sameSizes_tcpAck live.pcb).conserves
        (List.append_nil _).symm fun _ member => nomatch member
  | establish =>
      exact conserves_acts ⟨rfl, rfl, rfl⟩ rfl ⟨rfl, rfl⟩
  | output => exact conserves_output live

theorem Conserves.path
    {live last : Live} (path : Path live last) :
    Conserves live last := by
  induction path with
  | refl => exact .refl live
  | tail before step induction => exact induction.trans (.micro step)

/-! ## Connections in order -/

/-- What holds of a connection at every small step. -/
structure Orderly (live : Live) : Prop where
  intact : Intact live
  mirrored : Mirrored live
  accounted : Accounted live.pcb
  unclosed : Unclosed live
  /-- The sending side is open until the proxy has ended its stream. -/
  sending :
    live.fwd.proxyeof = false → maySend live.pcb.state = true
  unreset : Unreset live.env.trace

/-- Every small step keeps a connection in order. -/
theorem Orderly.micro
    (live next : Live) (step : Micro live next)
    (holds : Orderly live) :
    Orderly next := by
  refine ⟨Intact.micro live next step holds.intact,
    Mirrored.micro live next step holds.mirrored, ?_,
    Unclosed.micro live next step holds.unclosed, ?_,
    Unreset.micro step holds.unreset⟩
  · have kept {pcb : TcpPcb} (keeps : Keeps live.pcb pcb) :
        Accounted pcb :=
      keeps.accounted holds.accounted
    cases step with
    | feed room filled short written =>
        rcases mayRead_room room with ⟨open_, wide, _⟩
        have fits := Nat.le_of_lt (Nat.lt_of_le_of_lt short wide)
        refine (keeps_tcpOutput _ _ _).accounted ?_
        exact accounted_tcpWrite holds.accounted (holds.sending open_)
          (Nat.le_trans fits (tcpSndbuf_le live.pcb)) written
    | shutdown finished => exact kept (keeps_tcpShutdown _ _ _)
    | drain queued bounded => exact kept (keeps_tcpRecved _ _ _ _)
    | ack => exact kept (keeps_tcpAck _)
    | output => exact kept (keeps_tcpOutput _ _ _)
    | establish =>
        exact holds.accounted.perm (fun _ => List.Perm.refl _) rfl rfl rfl
    | refresh => exact holds.accounted
    | evctl mask mode => exact holds.accounted
    | recvFailed errno => exact holds.accounted
    | proxyEnded room => exact holds.accounted
    | sendFailed errno => exact holds.accounted
    | shutFailed setting errno => exact holds.accounted
    | eofShut setting empty due => exact holds.accounted
    | eofDisabled setting empty due => exact holds.accounted
  · cases step with
    | feed room filled short written =>
        rcases mayRead_room room with ⟨open_, _, _⟩
        intro _
        refine (congrArg maySend (state_tcpOutput _ _ _)).trans ?_
        refine (congrArg maySend (state_tcpWrite written)).trans ?_
        exact holds.sending open_
    | shutdown finished =>
        intro open_
        simp only [proxyFinished, Bool.and_eq_true] at finished
        have same : live.fwd.proxyeof = false := open_
        rw [finished.1] at same
        cases same
    | drain queued bounded =>
        intro open_
        refine (congrArg maySend (state_tcpRecved _ _ _ _)).trans ?_
        exact holds.sending open_
    | ack =>
        intro open_
        refine (congrArg maySend (state_tcpAck _)).trans ?_
        exact holds.sending open_
    | output =>
        intro open_
        refine (congrArg maySend (state_tcpOutput _ _ _)).trans ?_
        exact holds.sending open_
    | proxyEnded room =>
        intro open_
        cases open_
    | establish => exact holds.sending
    | refresh => exact holds.sending
    | evctl mask mode => exact holds.sending
    | recvFailed errno => exact holds.sending
    | sendFailed errno => exact holds.sending
    | shutFailed setting errno => exact holds.sending
    | eofShut setting empty due => exact holds.sending
    | eofDisabled setting empty due => exact holds.sending

theorem Orderly.path
    {live last : Live} (holds : Orderly live) (path : Path live last) :
    Orderly last :=
  Path.preserves Orderly.micro path holds

/-! ## How a handler leaves the connection -/

/-- Once the proxy's stream has ended and arrived, so has the sending side. -/
def Settled (live : Live) : Prop :=
  proxyFinished live.fwd = true → maySend live.pcb.state = false

/-- The forward is gone, and properly so unless a call failed. -/
def Over (world : World) : Prop :=
  world.fwd = none ∧
    (Unfailing world.env.trace →
      Graceful world.env.trace ∧ Delivered world.env.trace)

/-- A handler leaves the connection alive and settled, or it is over. -/
def Fares (live : Live) (world : World) : Prop :=
  (∃ last : Live, world = last.world ∧ Path live last ∧ Settled last) ∨
    Over world

theorem Fares.of_path
    {live last : Live} (path : Path live last) (settled : Settled last) :
    Fares live last.world :=
  .inl ⟨last, rfl, path, settled⟩

theorem Fares.after
    {first live : Live} {world : World} (before : Path first live)
    (fares : Fares live world) :
    Fares first world := by
  rcases fares with ⟨last, same, path, settled⟩ | ended
  · exact .inl ⟨last, same, before.trans path, settled⟩
  · exact .inr ended

/-- A connection which is alive is not over. -/
theorem Fares.alive
    {live last : Live} (fares : Fares live last.world) :
    Path live last ∧ Settled last := by
  rcases fares with ⟨other, same, path, settled⟩ | ended
  · cases Live.world_injective same
    exact ⟨path, settled⟩
  · cases ended.1

/-- Where a call has failed, nothing is promised. -/
theorem over_aborted
    {live : Live} {force : Bool} {action : Action} {errno : Errno}
    (recorded : action ∈ live.env.trace)
    (fails : failsBy action = some errno) (other : errno ≠ .eagain) :
    Over (aborted live force) := by
  refine ⟨rfl, fun calls => ?_⟩
  have member : action ∈ (aborted live force).env.trace :=
    List.mem_append_left _ recorded
  exact absurd (calls action member errno fails) other

theorem mem_record (live : Live) (action : Action) :
    action ∈ (live.record [action]).env.trace :=
  List.mem_append_right _ (List.mem_singleton.mpr rfl)

/-- Both streams ended and arrived, and the sending side has ended. -/
theorem over_closed
    {live : Live} (holds : Orderly live)
    (finished : proxyFinished live.fwd = true)
    (drained : lwipFinished live.fwd = true)
    (ended : maySend live.pcb.state = false) :
    Over (closed live) := by
  refine ⟨rfl, fun calls => ?_⟩
  simp only [proxyFinished, Bool.and_eq_true] at finished
  simp only [lwipFinished, Bool.and_eq_true] at drained
  have silent : (closeResult live).2.2 = [] :=
    tcpClose_silent live.env.inputPcb (live.env.tun.headD []) ended
  have trace :
      (closed live).env.trace =
        live.env.trace ++
          [.forwardDestroy live.fwd false, .tcpClose, .proxyPut] := by
    show live.env.trace ++ closeActions live = _
    simp [closeActions, silent]
  have sent := PbufChain.bytes_eq_nil_of_isNull finished.2
  have received := PbufChain.bytes_eq_nil_of_isNull drained.2
  rw [holds.mirrored.queue, List.drop_eq_nil_iff] at sent
  have accepted := holds.intact.bytes
  rw [received, List.append_nil] at accepted
  have reported := holds.mirrored.acked
  have fin : eofReceived live.env.trace = true :=
    holds.intact.eof.trans drained.1
  have eof := holds.mirrored.eof finished.1
  rw [trace] at calls ⊢
  refine
    ⟨⟨by simp [eofReceived_append, fin], List.mem_append_left _ eof,
      calls⟩, ?_, ?_, ?_⟩
  · simpa [acceptedBytes, receivedBytes, Upstream.acceptedBy,
      receivedBy] using accepted
  · have all :
        reportedTotal live.env.trace =
          (readBytes live.env.trace).length := by
      rw [← holds.mirrored.read]
      omega
    simpa [reportedTotal, readBytes, reportedBy, Downstream.readBy]
      using all
  · apply holds.unreset.append
    intro action member
    simp only [List.mem_cons, List.not_mem_nil, or_false] at member
    rcases member with rfl | rfl | rfl
    · rfl
    · rfl
    · rfl

/-! ## The transfer functions -/

theorem settled_of_open
    {live : Live} (open_ : live.fwd.proxyeof = false) : Settled live := by
  intro finished
  simp [proxyFinished, open_] at finished

theorem settled_shutdown (live : Live) : Settled live.shutdown := by
  intro _
  exact maySend_tcpShutdown _ _ live.pcb

/-- The queue has room for a chunk, so `tcp_write` does not refuse it. -/
theorem chunk_taken
    {live : Live} (holds : Orderly live)
    (spacious : Spacious live.pcb.mss live.pcb.sndWndMax)
    (room : mayRead live.fwd live.pcb = true)
    {bytes : List UInt8} (filled : bytes ≠ [])
    (short : bytes.length ≤ live.pcb.mss)
    {err : ErrT} {next : TcpPcb}
    (written : tcpWrite live.pcb bytes = .ok (err, next)) :
    err = .ok := by
  rcases mayRead_room room with ⟨open_, wide, queue⟩
  have fits : bytes.length ≤ live.pcb.sndBuf :=
    Nat.le_trans (Nat.le_of_lt (Nat.lt_of_le_of_lt short wide))
      (tcpSndbuf_le live.pcb)
  exact tcpWrite_takes (holds.sending open_) spacious filled short fits
    queue written

theorem spacious_path
    {live last : Live}
    (spacious : Spacious live.pcb.mss live.pcb.sndWndMax)
    (path : Path live last) :
    Spacious last.pcb.mss last.pcb.sndWndMax := by
  have same := Conserves.path path
  rw [same.mss, same.sndWndMax]
  exact spacious

theorem fares_proxyInput
    {live : Live} (holds : Orderly live)
    (spacious : Spacious live.pcb.mss live.pcb.sndWndMax)
    {err : ErrT} {world : World} (outcome : ProxyInput live err world) :
    Fares live world := by
  have ends := ProxyInput.ends outcome
  have start : Path live (refreshed live) := .single (.refresh live)
  cases outcome with
  | dry feeds room forwarding =>
      rcases mayRead_room room with ⟨open_, _, _⟩
      exact .of_path ends.path_of_alive (settled_of_open open_)
  | broken feeds room other =>
      exact .inr (over_aborted (mem_record _ _) rfl other)
  | refused feeds room filled short written failed =>
      have path := start.trans (Feeds.path feeds)
      have taken :=
        chunk_taken (holds.path path)
          (spacious_path spacious path) room filled short written
      exact absurd taken failed
  | stays feeds left unfinished =>
      refine .of_path ends.path_of_alive ?_
      intro finished
      have same := unfinished.symm.trans finished
      cases same
  | halfCloses feeds left finished pending =>
      exact .of_path ends.path_of_alive (settled_shutdown _)
  | closes feeds left finished drained =>
      have path :=
        (start.trans (Feeds.path feeds)).trans (InputLeft.path left)
      have last :=
        (path.tail (.evctl _ epollin .clr)).tail (.shutdown finished)
      exact .inr
        (over_closed (holds.path last) finished
          drained (maySend_tcpShutdown _ _ _))

/-- What `Settled` speaks about is the same. -/
structure SameEnd (live next : Live) : Prop where
  finished : proxyFinished next.fwd = proxyFinished live.fwd
  state : next.pcb.state = live.pcb.state

theorem Settled.same
    {live next : Live} (settled : Settled live) (same : SameEnd live next) :
    Settled next := by
  intro finished
  rw [same.state]
  exact settled (same.finished.symm.trans finished)

theorem Settled.drains
    {live last : Live} (settled : Settled live)
    (drains : Drains live last) :
    Settled last := by
  induction drains with
  | refl live => exact settled
  | step queued forwarding bounded progress rest induction =>
      exact induction (settled.same ⟨rfl, state_tcpRecved _ _ _ _⟩)

theorem Settled.passesEof
    {live next : Live} (settled : Settled live)
    (passes : PassesEof live next) :
    Settled next := by
  cases passes with
  | disabled setting => exact settled.same ⟨rfl, rfl⟩
  | shut setting forwarding => exact settled.same ⟨rfl, rfl⟩

theorem fares_proxyOutput
    {live : Live} (holds : Orderly live) (settled : Settled live)
    {shut : ShutAnswer} {err : ErrT} {world : World}
    (outcome : ProxyOutput live shut err world) :
    Fares live world := by
  have ends := ProxyOutput.ends outcome
  have start : Path live (refreshed live) := .single (.refresh live)
  have begins : Settled (refreshed live) := settled.same ⟨rfl, rfl⟩
  cases outcome with
  | full drains queued forwarding =>
      exact .of_path ends.path_of_alive
        ((begins.drains drains).same ⟨rfl, rfl⟩)
  | broken drains queued other =>
      exact .inr (over_aborted (mem_record _ _) rfl other)
  | idle drains empty nothing =>
      exact .of_path ends.path_of_alive
        ((begins.drains drains).same ⟨rfl, rfl⟩)
  | shutAgain drains empty due setting again =>
      exact .of_path ends.path_of_alive
        ((begins.drains drains).same ⟨rfl, rfl⟩)
  | shutFailed drains empty due setting other =>
      exact .inr (over_aborted (mem_record _ _) rfl other)
  | halfCloses drains empty due passes unfinished =>
      exact .of_path ends.path_of_alive
        ((begins.drains drains).passesEof passes)
  | closes drains empty due passes finished =>
      have path := start.trans (Drains.path drains)
      have last := path.trans (PassesEof.path passes empty due)
      exact .inr
        (over_closed (holds.path last) finished
          (PassesEof.lwipFinished passes empty due)
          ((begins.drains drains).passesEof passes finished))

/-! ## The callbacks -/

/-- A report which empties the send queue is followed by a read. -/
theorem asksMore_of_finished
    {live : Live} {len : Nat} (holds : Orderly (acknowledged live len))
    (finished : proxyFinished (acknowledged live len).fwd = true) :
    asksMore live.pcb := by
  simp only [proxyFinished, Bool.and_eq_true] at finished
  have acked : (acknowledged live len).pcb.sndBuf = tcpSndBuf :=
    sndBuf_of_empty holds.mirrored finished.2
  have all : live.pcb.sndBuf = tcpSndBuf := acked
  have slack : live.pcb.sndQueuelen ≤ 2 := holds.accounted.slack all
  refine ⟨?_, Nat.le_trans slack (by decide)⟩
  rw [TcpPcb.tcpSndbuf, all]
  decide

theorem fares_lwipSent
    {live : Live} {len : Nat} (holds : Orderly (acknowledged live len))
    (spacious : Spacious live.pcb.mss live.pcb.sndWndMax)
    {err : ErrT} {world : World} (outcome : LwipSent live len err world) :
    Fares (acknowledged live len) world := by
  cases outcome with
  | reads asks outcome => exact fares_proxyInput holds spacious outcome
  | waits short =>
      refine .of_path .refl ?_
      intro finished
      exact absurd (asksMore_of_finished holds finished) short

theorem fares_lwipReceived
    {live : Live} {chain : PbufChain}
    (holds : Orderly (arrived live chain))
    (settled : Settled (arrived live chain))
    {shut : ShutAnswer} {err : ErrT} {world : World}
    (outcome : LwipReceived live chain shut err world) :
    Fares (arrived live chain) world := by
  cases outcome with
  | acks outcome =>
      rcases (fares_proxyOutput holds settled outcome).alive with
        ⟨path, still⟩
      exact .of_path (path.tail (.ack _))
        (still.same ⟨rfl, state_tcpAck _⟩)
  | destroys outcome ended =>
      exact fares_proxyOutput holds settled outcome

theorem settled_readable
    {live mid : Live} (holds : Orderly live) (settled : Settled live)
    (spacious : Spacious live.pcb.mss live.pcb.sndWndMax)
    {events : EventMask} (read : Readable live events mid) :
    Settled mid := by
  cases read with
  | skipped clear => exact settled
  | read ready outcome =>
      exact (fares_proxyInput holds spacious outcome).alive.2

theorem settled_writable
    {live last : Live} (holds : Orderly live) (settled : Settled live)
    {events : EventMask} {shut : ShutAnswer}
    (written : Writable live events shut last) :
    Settled last := by
  cases written with
  | skipped clear => exact settled
  | written ready outcome =>
      exact (fares_proxyOutput holds settled outcome).alive.2

theorem settled_establishedLive
    {live : Live} (settled : Settled live) :
    Settled (establishedLive live) := by
  unfold establishedLive
  split
  · exact settled
  · exact settled.same ⟨rfl, state_tcpOutput _ _ _⟩

theorem fares_ioEvent
    {live : Live} (holds : Orderly live) (settled : Settled live)
    (spacious : Spacious live.pcb.mss live.pcb.sndWndMax)
    {events : EventMask} {shut : ShutAnswer} {err : ErrT} {world : World}
    (outcome : IoEvent live events shut err world) :
    Fares live world := by
  have ends := IoEvent.ends outcome
  cases outcome with
  | readEnds ready outcome ended =>
      exact fares_proxyInput holds spacious outcome
  | writeEnds read ready outcome ended =>
      have mid := holds.path read.path
      exact (fares_proxyOutput mid
        (settled_readable holds settled spacious read) outcome).after
          read.path
  | goesOn read written =>
      have mid := holds.path read.path
      have still :=
        settled_writable mid
          (settled_readable holds settled spacious read) written
      exact .of_path ends.path_of_alive (settled_establishedLive still)

/-! ## Events -/

/-- lwIP has still to report this many acknowledged bytes. -/
def Owes (rest : Nat) (live : Live) : Prop :=
  reportedTotal live.env.trace + rest + (tcpSndBuf - live.pcb.sndBuf) ≤
    (writtenBytes live.env.trace).length

/-- The events in which lwIP and the idle timer keep to the rules. -/
def Civil (live : Live) : Event → Prop
  | .lwip _ | .err => False
  | .sent len => Owes len.toNat live
  | .gcTick => live.fwd.gc ≠ 0
  | _ => True

theorem Orderly.readied
    {live : Live} (holds : Orderly live) (turn : Turn) :
    Orderly (readied live turn) where
  intact := holds.intact.quiet ⟨rfl, rfl, rfl, rfl⟩ rfl
  mirrored := holds.mirrored.quiet ⟨rfl, rfl, rfl⟩ rfl
  accounted := holds.accounted
  unclosed := holds.unclosed
  sending := holds.sending
  unreset := holds.unreset

theorem Orderly.acknowledged
    {live : Live} (holds : Orderly live) {len : Nat}
    (owes : Owes len live) :
    Orderly (acknowledged live len) where
  intact :=
    holds.intact.acts ⟨rfl, rfl, rfl, rfl⟩ rfl
      (Upstream.neutral_lwipSent len)
  mirrored := holds.mirrored.acknowledged owes
  accounted := holds.accounted
  unclosed := holds.unclosed
  sending := holds.sending
  unreset := holds.unreset.append (unreset_single _ rfl)

theorem arrived_sending (live : Live) (chain : PbufChain) :
    (arrived live chain).fwd.proxyeof = live.fwd.proxyeof ∧
      (arrived live chain).fwd.sndq = live.fwd.sndq := by
  simp only [arrived, Live.modifyFwd]
  split
  · exact ⟨rfl, rfl⟩
  · exact ⟨rfl, rfl⟩

theorem Orderly.arrived
    {live : Live} (holds : Orderly live) (chain : PbufChain) :
    Orderly (arrived live chain) where
  intact := (Upstream.moves_arrived live chain).intact holds.intact
  mirrored := holds.mirrored.arrived chain
  accounted := holds.accounted
  unclosed := holds.unclosed
  sending := by
    rw [(arrived_sending live chain).1]
    exact holds.sending
  unreset := holds.unreset.append (unreset_single _ rfl)

theorem Settled.arrived
    {live : Live} (settled : Settled live) (chain : PbufChain) :
    Settled (arrived live chain) := by
  rcases arrived_sending live chain with ⟨proxyeof, sndq⟩
  refine settled.same ⟨?_, rfl⟩
  rw [proxyFinished, proxyFinished, proxyeof, sndq]

/-- Nothing which a connection in order is about was touched. -/
theorem Orderly.beside
    {live next : Live} (holds : Orderly live)
    (fwd :
      next.fwd = { live.fwd with gc := next.fwd.gc })
    (pcb : next.pcb = live.pcb)
    (trace : next.env.trace = live.env.trace)
    (setting : next.env.noProxyHalfClose = live.env.noProxyHalfClose) :
    Orderly next where
  intact :=
    holds.intact.quiet
      ⟨by rw [fwd], by rw [fwd], by rw [fwd], setting⟩ trace
  mirrored :=
    holds.mirrored.quiet ⟨by rw [fwd], by rw [pcb], by rw [fwd]⟩ trace
  accounted := by
    rw [pcb]
    exact holds.accounted
  unclosed := by
    rw [Unclosed, pcb]
    exact holds.unclosed
  sending := by
    rw [fwd, pcb]
    exact holds.sending
  unreset := by
    rw [trace]
    exact holds.unreset

/-- Where a civil event leaves a connection in order. -/
theorem fares_outcome
    {live : Live} (holds : Orderly live) (settled : Settled live)
    (spacious : Spacious live.pcb.mss live.pcb.sndWndMax)
    {turn : Turn} (civil : Civil live turn.event)
    {err : ErrT} {world : World} (outcome : Outcome live turn err world) :
    Orderly (begun live turn) ∧ Fares (begun live turn) world := by
  have ready := holds.readied turn
  have still : Settled (readied live turn) := settled.same ⟨rfl, rfl⟩
  cases outcome with
  | lwip => cases civil
  | lost => cases civil
  | sent outcome =>
      have reported := ready.acknowledged civil
      exact ⟨reported, fares_lwipSent reported spacious outcome⟩
  | @received chain answers err world outcome =>
      have delivered := ready.arrived chain
      exact ⟨delivered,
        fares_lwipReceived delivered (still.arrived chain) outcome⟩
  | handshakeDone =>
      refine ⟨ready.beside rfl rfl rfl rfl, .of_path .refl ?_⟩
      exact still.same ⟨rfl, rfl⟩
  | @handshakeFailed answers err world outcome =>
      have failed :
          Orderly
            (failedLive (readied live ⟨.handshakeFailed, answers⟩)) :=
        ready.beside rfl rfl rfl rfl
      exact ⟨failed,
        fares_ioEvent failed (still.same ⟨rfl, rfl⟩) spacious outcome⟩
  | proxyEvent outcome =>
      exact ⟨ready, fares_ioEvent ready still spacious outcome⟩
  | expired zero => exact absurd zero civil
  | @ticked answers positive =>
      have began :
          begun live ⟨.gcTick, answers⟩ =
            ticked (readied live ⟨.gcTick, answers⟩) :=
        if_neg positive
      rw [began]
      refine ⟨ready.beside rfl rfl rfl rfl, .of_path .refl ?_⟩
      exact still.same ⟨rfl, rfl⟩

/-! ## What lwIP does in turn -/

/-- The connection between two things which lwIP does. -/
structure Composed (live : Live) : Prop where
  linked : Linked live
  orderly : Orderly live
  settled : Settled live

/-- The connection goes on, or it is over. -/
def Continues (world : World) : Prop :=
  (∃ live : Live, world = live.world ∧ Composed live) ∨ Over world

theorem pcb_begun
    {live : Live} {turn : Turn} (civil : Civil live turn.event) :
    (begun live turn).pcb = live.pcb := by
  rcases turn with ⟨event, answers⟩
  cases event with
  | lwip next => cases civil
  | gcTick =>
      simp only [begun]
      split
      · rfl
      · rfl
  | sent len => rfl
  | received chain => rfl
  | err => rfl
  | handshakeDone interest => rfl
  | handshakeFailed => rfl
  | proxyEvent events => rfl

/-- One civil event of a connection in order. -/
theorem Composed.step
    {live : Live} (composed : Composed live)
    (spacious : Spacious live.pcb.mss live.pcb.sndWndMax)
    {turn : Turn} (civil : Civil live turn.event)
    {next : World} (handled : step live.world turn = .ok next) :
    (∃ last : Live,
        next = last.world ∧ Composed last ∧ Path (begun live turn) last) ∨
      Over next := by
  rcases step_ok handled with ⟨err, ran⟩
  rcases handle_cases composed.linked turn with
    ⟨err, world, run, outcome⟩ | failed
  · rw [ran] at run
    cases run
    rcases fares_outcome composed.orderly composed.settled spacious civil
        outcome with
      ⟨begins, ⟨last, rfl, path, settled⟩ | over_⟩
    · have linked :=
        Path.linked path (begun_linked composed.linked turn)
      exact .inl
        ⟨last, rfl, ⟨linked, begins.path path, settled⟩, path⟩
    · exact .inr over_
  · rw [ran] at failed
    cases failed

/-- lwIP works on the control block of a connection in order. -/
theorem Composed.works
    {live : Live} (composed : Composed live) {next : TcpPcb}
    (keeps : Keeps live.pcb next)
    (same : maySend next.state = maySend live.pcb.state) :
    Composed (live.modifyPcb fun _ => next) := by
  have holds := composed.orderly
  have accounted := keeps.accounted holds.accounted
  refine ⟨composed.linked, ?_, ?_⟩
  · refine ⟨holds.intact.quiet ⟨rfl, rfl, rfl, rfl⟩ rfl,
      holds.mirrored.works keeps.sndBuf accounted.sndBuf_le, accounted,
      keeps.rxClosed.trans holds.unclosed, ?_, holds.unreset⟩
    intro open_
    exact same.trans (holds.sending open_)
  · intro finished
    exact same.trans (composed.settled finished)

theorem Composed.continues
    {live : Live} (composed : Composed live) {next : TcpPcb}
    (keeps : Keeps live.pcb next)
    (same : maySend next.state = maySend live.pcb.state) :
    Continues { live.world with pcb := some next } :=
  .inl ⟨live.modifyPcb fun _ => next, rfl, composed.works keeps same⟩

/-- A chore which a connection in order survives, or which ends it. -/
def Harmless (chore : Chore) : Prop :=
  ∀ (live : Live) (next : World),
    Composed live → Spacious live.pcb.mss live.pcb.sndWndMax →
    perform live.world chore = .ok next →
    (∃ last : Live,
        next = last.world ∧ Composed last ∧
          Spacious last.pcb.mss last.pcb.sndWndMax) ∨
      Over next

theorem harmless_work
    {change : TcpPcb → TcpPcb}
    (keeps : ∀ pcb, Keeps pcb (change pcb))
    (state : ∀ pcb, (change pcb).state = pcb.state)
    (widens : ∀ pcb, Widens pcb (change pcb)) :
    Harmless (.work change) := by
  intro live next composed spacious performed
  cases performed
  refine .inl ⟨live.modifyPcb fun _ => change live.pcb, rfl, ?_, ?_⟩
  · exact composed.works (keeps live.pcb)
      (congrArg maySend (state live.pcb))
  · exact (widens live.pcb).spacious spacious

theorem harmless_call
    {turn : Turn} (civil : ∀ live, Civil live turn.event) :
    Harmless (.call turn) := by
  intro live next composed spacious performed
  rcases composed.step spacious (civil live) performed with
    ⟨last, same, still, path⟩ | over_
  · have begins : Spacious (begun live turn).pcb.mss
        (begun live turn).pcb.sndWndMax := by
      rw [pcb_begun (civil live)]
      exact spacious
    exact .inl ⟨last, same, still, spacious_path begins path⟩
  · exact .inr over_

/-- Harmless chores are done in turn. -/
theorem continues_performAll
    {chores : List Chore} (harmless : ∀ chore ∈ chores, Harmless chore)
    {live : Live} (composed : Composed live)
    (spacious : Spacious live.pcb.mss live.pcb.sndWndMax)
    {last : World} (done_ : performAll chores live.world = .ok last) :
    Continues last := by
  induction chores generalizing live with
  | nil =>
      cases done_
      exact .inl ⟨live, rfl, composed⟩
  | cons chore rest induction =>
      simp only [performAll] at done_
      split at done_
      · cases done_
      · next next performed =>
          rcases harmless chore List.mem_cons_self live next composed
              spacious performed with
            ⟨mid, rfl, still, wide⟩ | over_
          · refine induction ?_ still wide done_
            intro other member
            exact harmless other (List.mem_cons_of_mem chore member)
          · rw [over_.1] at done_
            cases done_
            exact .inr over_

theorem widens_of_sameSizes
    {before after : TcpPcb} (same : SameSizes before after) :
    Widens before after :=
  ⟨same.mss, Nat.le_of_eq same.sndWndMax.symm⟩

theorem harmless_receivedChores
    (chains : List PbufChain) (answers : List Answers) :
    ∀ chore ∈ receivedChores chains answers, Harmless chore := by
  induction chains generalizing answers with
  | nil =>
      intro chore member
      cases member
  | cons chain rest induction =>
      intro chore member
      rcases List.mem_cons.mp member with rfl | later
      · exact harmless_call fun _ => trivial
      · exact induction _ chore later

theorem harmless_creditFin : Harmless (.work creditFin) := by
  refine harmless_work keeps_creditFin state_creditFin ?_
  intro pcb
  unfold creditFin
  split
  · exact ⟨rfl, Nat.le_refl _⟩
  · exact .refl pcb

theorem harmless_deliver
    {processed : Processed} (unclosed : processed.pcb.rxClosed = false)
    (replies : Replies) :
    ∀ chore ∈ deliver processed replies, Harmless chore := by
  intro chore member
  simp only [deliver, unclosed, Bool.false_eq_true, false_and,
    if_false] at member
  rcases List.mem_append.mp member with payload | last
  · exact harmless_receivedChores _ _ chore payload
  · rcases List.mem_append.mp last with ends | output
    · split at ends
      · rcases List.mem_cons.mp ends with rfl | call
        · exact harmless_creditFin
        · rw [List.mem_singleton.mp call]
          exact harmless_call fun _ => trivial
      · cases ends
    · rw [List.mem_singleton.mp output]
      exact harmless_work (fun pcb => keeps_tcpOutput _ _ pcb)
        (fun pcb => state_tcpOutput _ _ pcb)
        fun pcb => widens_of_sameSizes (sameSizes_tcpOutput _ _ pcb)

/-! ## Reports -/

theorem sum_sentChunks (acked : Nat) :
    ((sentChunks acked).map UInt16.toNat).sum = acked := by
  have small : acked % 65535 < 65536 :=
    Nat.lt_trans (Nat.mod_lt acked (by decide)) (by decide)
  have whole := Nat.div_add_mod acked 65535
  have full : (65535 : UInt16).toNat = 65535 := rfl
  simp only [sentChunks, List.map_append, List.sum_append,
    List.map_replicate, List.sum_replicate_nat, full]
  split
  · next even =>
      simp only [List.map_nil, List.sum_nil]
      omega
  · have rest :
        (UInt16.ofNat (acked % 65535)).toNat = acked % 65535 := by
      rw [UInt16.toNat_ofNat']
      exact Nat.mod_eq_of_lt small
    simp only [List.map_cons, List.map_nil, List.sum_cons,
      List.sum_nil, rest]
    omega

/-- What is reported is no longer owed. -/
theorem Owes.reported
    {live last : Live} {len : UInt16} {answers : Answers} {rest : Nat}
    (before : Mirrored live) (after : Mirrored last)
    (owes : Owes (len.toNat + rest) live)
    (path : Path (begun live ⟨.sent len, answers⟩) last) :
    Owes rest last := by
  have conserved := Conserves.path path
  have reported := conserved.reported
  have written := conserved.written
  have began := reportedTotal_lwipSent live.env.trace len.toNat
  have same := writtenBytes_lwipSent live.env.trace len.toNat
  have first :
      reportedTotal last.env.trace =
        reportedTotal live.env.trace + len.toNat :=
    reported.trans began
  have second :
      (writtenBytes last.env.trace).length + last.pcb.sndBuf =
        (writtenBytes live.env.trace).length + live.pcb.sndBuf :=
    written.trans (by rw [← same]; rfl)
  have roomBefore := before.room
  have roomAfter := after.room
  simp only [Owes] at owes ⊢
  omega

/-- All reports are made, and the other chores follow. -/
theorem continues_sentChores
    {chunks : List UInt16} {answers : List Answers} {others : List Chore}
    (harmless : ∀ chore ∈ others, Harmless chore)
    {live : Live} (composed : Composed live)
    (spacious : Spacious live.pcb.mss live.pcb.sndWndMax)
    (owes : Owes (chunks.map UInt16.toNat).sum live)
    {last : World}
    (done_ :
      performAll (sentChores chunks answers ++ others) live.world =
        .ok last) :
    Continues last := by
  induction chunks generalizing live answers with
  | nil => exact continues_performAll harmless composed spacious done_
  | cons len rest induction =>
      simp only [List.map_cons, List.sum_cons] at owes
      have first : Owes len.toNat live := by
        simp only [Owes] at owes ⊢
        omega
      have civil :
          Civil live
            (Turn.mk (.sent len) (answers.headD noAnswers)).event :=
        first
      simp only [sentChores, List.cons_append, performAll] at done_
      split at done_
      · cases done_
      · next next performed =>
          rcases composed.step spacious civil performed with
            ⟨mid, rfl, still, path⟩ | over_
          · have begins := spacious
            rw [← pcb_begun civil] at begins
            exact induction still (spacious_path begins path)
              (owes.reported composed.orderly.mirrored
                still.orderly.mirrored path)
              done_
          · rw [over_.1] at done_
            cases done_
            exact .inr over_

/-! ## Whole runs -/

/-- The event is a tick of the idle timer. -/
def isTick : Event → Bool
  | .gcTick => true
  | _ => false

/-- The application never resets, and no idle timeout fires. -/
def unforced (stack : Stack) : Stimulus → Prop
  | .segment seg _ => seg.rst = false
  | .turn turn =>
      isTick turn.event = true → ∀ fwd ∈ stack.world.fwd, fwd.gc ≠ 0
  | .slowTick _ _ | .fastTick _ => True

instance (stack : Stack) :
    (stimulus : Stimulus) → Decidable (unforced stack stimulus)
  | .segment seg _ => inferInstanceAs (Decidable (seg.rst = false))
  | .slowTick _ _ => inferInstanceAs (Decidable True)
  | .fastTick _ => inferInstanceAs (Decidable True)
  | .turn turn =>
      inferInstanceAs
        (Decidable
          (isTick turn.event = true →
            ∀ fwd ∈ stack.world.fwd, fwd.gc ≠ 0))

/--
lwIP does not give the connection up while the forward exists: the last FIN
is not acknowledged yet, no timer removes the control block, and the windows
of the application are not tiny.
-/
def patient (stack : Stack) : Stimulus → Prop
  | .segment seg _ =>
      ∀ pcb ∈ stack.world.pcb,
        acksLastFin stack.ticks seg pcb = false ∧
          Spacious pcb.mss pcb.sndWndMax ∧
          Spacious (parseMss seg.mss pcb.mss) pcb.sndWndMax
  | .slowTick _ _ =>
      ∀ pcb ∈ stack.world.pcb,
        timeWaitExpires (stack.ticks + 1) pcb = false ∧
          (pcb.state = .timeWait ∨
            slowtmrRemoves (stack.ticks + 1) pcb = false)
  | .fastTick _ => True
  | .turn _ => ∀ pcb ∈ stack.world.pcb, Spacious pcb.mss pcb.sndWndMax

instance (stack : Stack) :
    (stimulus : Stimulus) → Decidable (patient stack stimulus)
  | .segment seg _ =>
      inferInstanceAs
        (Decidable
          (∀ pcb ∈ stack.world.pcb,
            acksLastFin stack.ticks seg pcb = false ∧
              Spacious pcb.mss pcb.sndWndMax ∧
              Spacious (parseMss seg.mss pcb.mss) pcb.sndWndMax))
  | .slowTick _ _ =>
      inferInstanceAs
        (Decidable
          (∀ pcb ∈ stack.world.pcb,
            timeWaitExpires (stack.ticks + 1) pcb = false ∧
              (pcb.state = .timeWait ∨
                slowtmrRemoves (stack.ticks + 1) pcb = false)))
  | .fastTick _ => inferInstanceAs (Decidable True)
  | .turn _ =>
      inferInstanceAs
        (Decidable
          (∀ pcb ∈ stack.world.pcb, Spacious pcb.mss pcb.sndWndMax))

/-- The runs in which nobody forces the connection to end. -/
def unforcedSystem : System Fault Stack Stimulus :=
  stackSystem.restrict (fun _ => True) unforced

/-- Those in which lwIP does not give the connection up either. -/
def patientSystem : System Fault Stack Stimulus :=
  unforcedSystem.restrict (fun _ => True) patient

instance (stack : Stack) (stimulus : Stimulus) :
    Decidable (unforcedSystem.enabled stack stimulus) :=
  inferInstanceAs (Decidable (occurs stack stimulus ∧ _))

instance (stack : Stack) (stimulus : Stimulus) :
    Decidable (patientSystem.enabled stack stimulus) :=
  inferInstanceAs
    (Decidable (unforcedSystem.enabled stack stimulus ∧ _))

theorem Composed.tcpInput
    {live : Live} (composed : Composed live) {ticks : Nat}
    {seg : Segment} (unreset : seg.rst = false)
    (unacked : acksLastFin ticks seg live.pcb = false)
    (before : Spacious live.pcb.mss live.pcb.sndWndMax)
    (after :
      Spacious (parseMss seg.mss live.pcb.mss) live.pcb.sndWndMax)
    {replies : Replies} {last : World}
    (done_ : tcpInput ticks seg replies live.world = .ok last) :
    Continues last := by
  simp only [TcpStack.tcpInput, Live.world] at done_
  split at done_
  · cases done_
    refine composed.continues ?_ ?_
    · exact keeps_tcpTimewaitInput ticks replies.writes seg live.pcb
    · rw [state_tcpTimewaitInput]
  · next active =>
      have moved := moved_tcpProcess ticks seg active
      have same := maySend_tcpProcess ticks seg live.pcb
      have unclosed :=
        moved.keeps.rxClosed.trans composed.orderly.unclosed
      have alive : (tcpProcess ticks seg live.pcb).closed = false := by
        cases closed : (tcpProcess ticks seg live.pcb).closed with
        | false => rfl
        | true =>
            rw [closed_tcpProcess closed] at unacked
            cases unacked
      have spacious :
          Spacious (tcpProcess ticks seg live.pcb).pcb.mss
            (tcpProcess ticks seg live.pcb).pcb.sndWndMax := by
        rcases widens_tcpProcess ticks seg live.pcb with kept | refreshed
        · exact kept.spacious before
        · exact refreshed.spacious after
      have worked := composed.works moved.keeps same
      have owes :
          Owes
            (((sentChunks (tcpProcess ticks seg live.pcb).acked).map
              UInt16.toNat).sum)
            (live.modifyPcb
              fun _ => (tcpProcess ticks seg live.pcb).pcb) := by
        have acked := composed.orderly.mirrored.acked
        have grown := moved.acked
        have room := worked.orderly.mirrored.room
        simp only [sum_sentChunks, Owes, Live.modifyPcb] at room ⊢
        omega
      simp only [afterProcess, reset_tcpProcess unreset, alive,
        Bool.false_eq_true, if_false, TcpStack.performAll,
        TcpStack.perform, Option.isSome_some, if_true] at done_
      exact continues_sentChores (harmless_deliver unclosed replies)
        worked spacious owes done_

theorem Composed.slowtmr
    {live : Live} (composed : Composed live) {ticks : Nat}
    (lingers : timeWaitExpires ticks live.pcb = false)
    (stays :
      live.pcb.state = .timeWait ∨ slowtmrRemoves ticks live.pcb = false)
    {due : Bool} {writes : List Bool} {last : World}
    (done_ : slowtmr ticks due writes live.world = .ok last) :
    Continues last := by
  simp only [TcpStack.slowtmr, Live.world, lingers, Bool.false_eq_true,
    if_false] at done_
  split at done_
  · cases done_
    exact .inl ⟨live, rfl, composed⟩
  · next active =>
      split at done_
      · cases done_
      · rcases stays with waits | stays
        · exact absurd waits active
        · rw [stays] at done_
          simp only [Bool.false_eq_true, if_false] at done_
          split at done_
          · cases done_
          · next next ticked =>
              cases done_
              refine composed.continues ?_ ?_
              · exact keeps_tcpSlowtmr active ticked
              · rw [state_tcpSlowtmr ticked]

theorem Composed.fasttmr
    {live : Live} (composed : Composed live) {writes : List Bool}
    {last : World} (done_ : fasttmr writes live.world = .ok last) :
    Continues last := by
  simp only [TcpStack.fasttmr, Live.world] at done_
  split at done_
  · cases done_
    exact .inl ⟨live, rfl, composed⟩
  · cases done_
    refine composed.continues (keeps_tcpFasttmr _ _) ?_
    rw [state_tcpFasttmr]

theorem civil_of_unforced
    {live : Live} {turn : Turn} (ours : ofForwarder turn.event = true)
    (calm : isTick turn.event = true → live.fwd.gc ≠ 0) :
    Civil live turn.event := by
  cases event : turn.event with
  | gcTick =>
      rw [event] at calm
      exact calm rfl
  | handshakeDone interest => trivial
  | handshakeFailed => trivial
  | proxyEvent events => trivial
  | lwip next =>
      rw [event] at ours
      cases ours
  | sent len =>
      rw [event] at ours
      cases ours
  | received chain =>
      rw [event] at ours
      cases ours
  | err =>
      rw [event] at ours
      cases ours

/-- Whatever happens to a connection in order, it continues. -/
theorem continues_respond
    {live : Live} {ticks : Nat} (composed : Composed live)
    {stimulus : Stimulus} {last : Stack}
    (permitted : patientSystem.enabled ⟨live.world, ticks⟩ stimulus)
    (responded : respond ⟨live.world, ticks⟩ stimulus = .ok last) :
    Continues last.world := by
  rcases permitted with ⟨⟨occurring, calm⟩, stays⟩
  cases stimulus with
  | segment seg replies =>
      rcases PcbLiveness.map_ok responded with ⟨world, done_, rfl⟩
      rcases stays live.pcb rfl with ⟨unacked, before, after⟩
      exact composed.tcpInput calm unacked before after done_
  | slowTick due writes =>
      rcases PcbLiveness.map_ok responded with ⟨world, done_, rfl⟩
      rcases stays live.pcb rfl with ⟨lingers, stays⟩
      exact composed.slowtmr lingers stays done_
  | fastTick writes =>
      rcases PcbLiveness.map_ok responded with ⟨world, done_, rfl⟩
      exact composed.fasttmr done_
  | turn turn =>
      rcases PcbLiveness.map_ok responded with ⟨world, done_, rfl⟩
      have civil : Civil live turn.event := by
        refine civil_of_unforced occurring.2.1 ?_
        intro tick
        exact calm tick live.fwd rfl
      rcases composed.step (stays live.pcb rfl) civil done_ with
        ⟨next, same, still, _⟩ | over_
      · exact .inl ⟨next, same, still⟩
      · exact .inr over_

theorem composed_newborn
    (syn : Syn) (iss ticks : Nat) (proxy : Proxy) (env : Env) :
    Composed (newborn (tcpListenInput syn iss ticks) proxy env) := by
  have fresh := freshPcb_tcpListenInput syn iss ticks
  refine ⟨⟨rfl, rfl⟩, ?_, ?_⟩
  · refine ⟨intact_newborn _ proxy env, mirrored_newborn fresh proxy env,
      ?_, rfl, fun _ => rfl, ?_⟩
    · exact (accounted_tcpListenInput syn iss ticks).perm
        (fun _ => List.Perm.refl _) rfl rfl rfl
    · intro action member
      cases member
  · intro finished
    cases finished

theorem reachable_continues
    {stack : Stack} (reachable : patientSystem.Reachable stack) :
    Continues stack.world := by
  induction reachable with
  | start first =>
      rcases first with ⟨⟨⟨syn, iss, ticks, proxy, env, _, rfl⟩, _⟩, _⟩
      exact .inl ⟨_, rfl, composed_newborn syn iss ticks proxy env⟩
  | @next source stimulus target before permitted responded induction =>
      rcases induction with ⟨live, same, composed⟩ | over_
      · rcases source with ⟨world, ticks⟩
        have world_eq : world = live.world := same
        subst world_eq
        exact continues_respond composed permitted responded
      · have occurring := permitted.1.1
        have gone : source.world.fwd.isSome = false := by
          rw [over_.1]
          rfl
        cases stimulus with
        | segment seg replies =>
            rw [occurring.1] at gone
            cases gone
        | slowTick due writes =>
            rw [occurring] at gone
            cases gone
        | fastTick writes =>
            rw [occurring] at gone
            cases gone
        | turn turn =>
            rw [occurring.1] at gone
            cases gone

/--
In every run in which lwIP does not give the connection up and no call fails,
the forward is gone only after both sides have ended their streams, with
everything delivered to both and neither reset.
-/
theorem graceful_close_delivers
    {stack : Stack} (reachable : patientSystem.Reachable stack)
    (ended : stack.world.fwd = none)
    (calls : Unfailing stack.world.env.trace) :
    Graceful stack.world.env.trace ∧
      Delivered stack.world.env.trace := by
  rcases reachable_continues reachable with ⟨live, same, _⟩ | over_
  · rw [same] at ended
    cases ended
  · exact over_.2 calls

/-! ## Sample runs -/

/-- The application sends its last byte and a FIN. -/
def sampleFin (answers : Answers) : Stimulus :=
  .segment (sampleSegment 6511 [.pbufAlloc [1]] true)
    (sampleReplies answers)

/-- The proxy takes the last byte, and then ends its own stream. -/
def samplePatient : List Stimulus :=
  sampleOpening ++
    [sampleFin { noAnswers with sends := [.accept 0] }, proxyEnds]

/-- The last FIN is acknowledged before the proxy takes the last byte. -/
def sampleLoss : List Stimulus :=
  sampleOpening ++
    [sampleFin notWritable, proxyEnds,
      .segment (sampleSegment 6512 [] false) (sampleReplies noAnswers)]

/-- The forward is gone, both streams have ended and no call has failed. -/
def sampleGraceful (stack : Stack) : Bool :=
  stack.world.fwd.isNone && eofReceived stack.world.env.trace &&
    stack.world.env.trace.any (fun
      | .proxyRecv (.data []) => true
      | _ => false) &&
    stack.world.env.trace.all fun action =>
      decide (∀ errno ∈ failsBy action, errno = .eagain)

theorem graceful_of_sample
    {stack : Stack} (tested : sampleGraceful stack = true) :
    stack.world.fwd = none ∧ Graceful stack.world.env.trace := by
  simp only [sampleGraceful, Bool.and_eq_true, Option.isNone_iff_eq_none,
    List.any_eq_true, List.all_eq_true, decide_eq_true_eq] at tested
  rcases tested with ⟨⟨⟨gone, fin⟩, action, member, ends⟩, calls⟩
  refine ⟨gone, fin, ?_, calls⟩
  split at ends
  · exact member
  · cases ends

theorem graceful_close_delivers_byte :
    ∃ stack,
      patientSystem.Reachable stack ∧ stack.world.fwd = none ∧
        Unfailing stack.world.env.trace ∧
        Graceful stack.world.env.trace ∧
        Delivered stack.world.env.trace := by
  have passes :
      (patientSystem.replay sampleStack samplePatient).map
          sampleGraceful =
        some true := by
    decide +kernel
  have started : patientSystem.Reachable sampleStack :=
    .start ⟨⟨⟨_, _, _, _, _, .inl rfl, rfl⟩, trivial⟩, trivial⟩
  rcases started.exists_replay passes with ⟨stack, reachable, tested⟩
  rcases graceful_of_sample tested with ⟨gone, graceful⟩
  exact ⟨stack, reachable, gone, graceful.calls,
    graceful_close_delivers reachable gone graceful.calls⟩

/-- The last byte is lost when the last FIN is acknowledged before. -/
theorem graceful_close_loses :
    ¬ ∀ stack, unforcedSystem.Reachable stack →
      stack.world.fwd = none → Graceful stack.world.env.trace →
        Delivered stack.world.env.trace := by
  intro delivers
  have passes :
      (unforcedSystem.replay sampleStack sampleLoss).map
          (fun stack =>
            sampleGraceful stack &&
              decide
                (acceptedBytes stack.world.env.trace ≠
                  receivedBytes stack.world.env.trace)) =
        some true := by
    decide +kernel
  have started : unforcedSystem.Reachable sampleStack :=
    .start ⟨⟨_, _, _, _, _, .inl rfl, rfl⟩, trivial⟩
  rcases started.exists_replay passes with ⟨stack, reachable, tested⟩
  simp only [Bool.and_eq_true, decide_eq_true_eq] at tested
  rcases graceful_of_sample tested.1 with ⟨gone, graceful⟩
  exact tested.2 (delivers stack reachable gone graceful).accepted

end Nsproxy.Core.GracefulClose
