import Mathlib.Logic.Relation
import Mathlib.Tactic.Common
import Nsproxy.Lib.Transition
import Nsproxy.Lwip.Upkeep
import Nsproxy.Core.TcpPaths

/-!
# Segments which the TUN device takes

A control block, as the forwarder and lwIP use it: the calls of `core.c`,
segments of the application and the ticks of the timers, in any order.  Each
`tcp_write` is a step of its own, under the conditions of the loop of
`tcp_proxy_input`.

`tun_output` takes packets of at most sixteen pbufs which fit the MTU.  The
second limit is always kept.  The first one is kept as long as `tcp_write`
extends no segment which has sixteen pbufs already.
-/

namespace Nsproxy.Core.Segments

open Nsproxy.Lib.Transition
open Nsproxy.Lwip.Opts
open Nsproxy.Lwip.TcpOut
open Nsproxy.Lwip.Tcp
open Nsproxy.Lwip.TcpIn
open Nsproxy.Lwip.TcpTimers
open Nsproxy.Lwip.Queues
open Nsproxy.Lwip.Upkeep
open Nsproxy.Core.Memory
open Nsproxy.Core.TcpHandlers
open Nsproxy.Core.TcpOutcomes
open Nsproxy.Core.TcpPaths

/-! ## The uses of a control block -/

/-- A control block, and the clock of the slow timer. -/
structure Clocked where
  pcb : TcpPcb
  ticks : Nat
deriving DecidableEq, Repr

/-- What happens to a control block. -/
inductive Use where
  /-- `tcp_proxy_input` passes on what it read. -/
  | write (data : List UInt8)
  | output (inputPcb : Bool) (writes : List Bool)
  | recved (inputPcb : Bool) (writes : List Bool) (len : Nat)
  /-- The macro `tcp_ack`. -/
  | ack
  /-- `tcp_proxy_io_event` sets `proxyestab`. -/
  | establish
  | shutdown (inputPcb : Bool) (writes : List Bool)
  /-- A segment of the application. -/
  | input (seg : Segment) (writes : List Bool)
  /-- `tcp_input` corrects the window for a FIN. -/
  | finSeen
  | slowTick (due : Bool) (writes : List Bool)
  | fastTick (writes : List Bool)

/-- The control block after it was used. -/
def use (state : Clocked) : Use → Except Fault Clocked
  | .write data =>
      match tcpWrite state.pcb data with
      | .error fault => .error fault
      | .ok (_, next) => .ok { state with pcb := next }
  | .output inputPcb writes =>
      .ok { state with pcb := (tcpOutput inputPcb writes state.pcb).2.1 }
  | .recved inputPcb writes len =>
      .ok { state with pcb := (tcpRecved inputPcb writes state.pcb len).1 }
  | .ack => .ok { state with pcb := tcpAck state.pcb }
  | .establish =>
      .ok { state with pcb := { state.pcb with proxyestab := true } }
  | .shutdown inputPcb writes =>
      .ok { state with pcb := (tcpShutdown inputPcb writes state.pcb).1 }
  | .input seg writes =>
      if state.pcb.state = .timeWait then
        .ok
          { state with
            pcb := tcpTimewaitInput state.ticks writes seg state.pcb }
      else
        .ok { state with pcb := (tcpProcess state.ticks seg state.pcb).pcb }
  | .finSeen => .ok { state with pcb := creditFin state.pcb }
  | .slowTick due writes =>
      if state.pcb.state = .timeWait then
        .ok { state with ticks := state.ticks + 1 }
      else
        match tcpSlowtmr due writes state.pcb with
        | .error fault => .error fault
        | .ok next => .ok { pcb := next, ticks := state.ticks + 1 }
  | .fastTick writes =>
      .ok { state with pcb := tcpFasttmr writes state.pcb }

/--
When a use may occur: data is written as the loop of `tcp_proxy_input` does
it, and a control block which lwIP removes is not used any more.
-/
def mayUse (state : Clocked) : Use → Prop
  | .write data =>
      data ≠ [] ∧ data.length ≤ state.pcb.mss ∧
        state.pcb.mss < state.pcb.tcpSndbuf ∧
        state.pcb.sndQueuelen ≤ tcpSndQueuelen / 2
  | .input seg _ =>
      state.pcb.state = .timeWait ∨
        (tcpProcess state.ticks seg state.pcb).reset = false ∧
          (tcpProcess state.ticks seg state.pcb).closed = false
  | .slowTick _ _ =>
      slowtmrRemoves (state.ticks + 1) state.pcb = false ∧
        timeWaitExpires (state.ticks + 1) state.pcb = false
  | _ => True

instance (state : Clocked) : (event : Use) → Decidable (mayUse state event)
  | .write _ => inferInstanceAs (Decidable (_ ∧ _))
  | .input _ _ => inferInstanceAs (Decidable (_ ∨ _ ∧ _))
  | .slowTick _ _ => inferInstanceAs (Decidable (_ ∧ _))
  | .output _ _ => inferInstanceAs (Decidable True)
  | .recved _ _ _ => inferInstanceAs (Decidable True)
  | .ack => inferInstanceAs (Decidable True)
  | .establish => inferInstanceAs (Decidable True)
  | .shutdown _ _ => inferInstanceAs (Decidable True)
  | .finSeen => inferInstanceAs (Decidable True)
  | .fastTick _ => inferInstanceAs (Decidable True)

/-- The control block which `core_tcp_new` is given. -/
def opened (syn : Syn) (iss ticks : Nat) : Clocked where
  pcb := { tcpListenInput syn iss ticks with callbacks := true }
  ticks := ticks

/-- The control block of a forwarded connection. -/
def pcbSystem : System Fault Clocked Use where
  initial state := ∃ syn iss ticks, state = opened syn iss ticks
  enabled := mayUse
  step := use

instance (state : Clocked) (event : Use) :
    Decidable (pcbSystem.enabled state event) :=
  inferInstanceAs (Decidable (mayUse state event))

/-! ## What the TUN device takes -/

/-- Every unsent segment passes the tests of `tun_output`. -/
def Emittable (pcb : TcpPcb) : Prop :=
  ∀ seg ∈ pcb.unsent,
    seg.pbufClen ≤ 16 ∧ seg.totLen pcb.ipHeader ≤ nsproxyMtu

/-- A write does not extend a segment which has sixteen pbufs. -/
def shortChains (state : Clocked) : Use → Prop
  | .write _ =>
      ∀ last ∈ state.pcb.unsent.getLast?,
        appendSpace state.pcb last ≠ 0 → last.pbufClen < 16
  | _ => True

instance (state : Clocked) :
    (event : Use) → Decidable (shortChains state event)
  | .write _ =>
      inferInstanceAs
        (Decidable
          (∀ last ∈ state.pcb.unsent.getLast?,
            appendSpace state.pcb last ≠ 0 → last.pbufClen < 16))
  | .input _ _ => inferInstanceAs (Decidable True)
  | .slowTick _ _ => inferInstanceAs (Decidable True)
  | .output _ _ => inferInstanceAs (Decidable True)
  | .recved _ _ _ => inferInstanceAs (Decidable True)
  | .ack => inferInstanceAs (Decidable True)
  | .establish => inferInstanceAs (Decidable True)
  | .shutdown _ _ => inferInstanceAs (Decidable True)
  | .finSeen => inferInstanceAs (Decidable True)
  | .fastTick _ => inferInstanceAs (Decidable True)

/-- The runs whose writes all meet the condition. -/
def shortSystem : System Fault Clocked Use :=
  pcbSystem.restrict (fun _ => True) shortChains

instance (state : Clocked) (event : Use) :
    Decidable (shortSystem.enabled state event) :=
  inferInstanceAs (Decidable (mayUse state event ∧ _))

/-- A segment which passes the tests, and will do so when it is split. -/
structure Fits (seg : TcpSeg) : Prop where
  clen : seg.pbufClen ≤ 16
  len : seg.len + seg.optlen ≤ tcpMss

theorem robust_fits : Robust Fits where
  bare := by
    intro seqno
    exact ⟨(by decide : 1 ≤ 16), Nat.zero_le _⟩
  flagged := by
    intro seg fits
    exact ⟨fits.clen, fits.len⟩
  head := by
    intro seg split fits positive inside
    refine ⟨Nat.le_trans (pbufClen_splitHead_le seg split) fits.clen, ?_⟩
    rw [len_splitHead inside, optlen_splitHead]
    have len := fits.len
    omega
  remainder := by
    intro seg split fits positive inside
    refine ⟨(by decide : 1 ≤ 16), ?_⟩
    have optlen : (splitRemainder seg split).optlen = seg.optlen := rfl
    rw [len_splitRemainder, optlen]
    have len := fits.len
    omega

theorem mssLocal_le (pcb : TcpPcb) : pcb.mssLocal ≤ tcpMss := by
  have bound := pcb.mss_le
  simp only [TcpPcb.mssLocal]
  split
  · exact bound
  · exact Nat.le_trans (Nat.min_le_left _ _) bound

theorem Fits.emittable
    {seg : TcpSeg} (fits : Fits seg) (pcb : TcpPcb) :
    seg.pbufClen ≤ 16 ∧ seg.totLen pcb.ipHeader ≤ nsproxyMtu := by
  have len := fits.len
  have header : pcb.ipHeader ≤ 40 := by
    simp only [TcpPcb.ipHeader]
    split
    · exact Nat.le_refl _
    · decide
  have room : tcpMss + 60 = nsproxyMtu := by decide
  refine ⟨fits.clen, ?_⟩
  simp only [TcpSeg.totLen]
  omega

/-! ## Writes -/

/-- New segments fit. -/
theorem fits_created
    {pcb : TcpPcb} {fuel queuelen seqno total : Nat} {data : List UInt8}
    {segs : List TcpSeg}
    (created :
      createSegments pcb.mssLocal fuel queuelen seqno data =
        some (segs, total)) :
    ∀ seg ∈ segs, Fits seg := by
  intro seg member
  rcases (createSegments_spec created).2.2 seg member with
    ⟨_, short, pbufs, plain⟩
  refine ⟨by rw [pbufs]; decide, ?_⟩
  rw [plain]
  exact Nat.le_trans short (mssLocal_le pcb)

/-- An extended segment fits when it had less than sixteen pbufs. -/
theorem fits_appendRom
    (pcb : TcpPcb) {last : TcpSeg} {data : List UInt8}
    (fits : Fits last) (short : last.pbufClen < 16)
    (space : data.length ≤ appendSpace pcb last) :
    Fits (appendRom last data) := by
  have optlen : (appendRom last data).optlen = last.optlen := rfl
  have bound := mssLocal_le pcb
  have len := fits.len
  refine ⟨?_, ?_⟩
  · rw [pbufClen_appendRom]
    omega
  · rw [len_appendRom, optlen]
    simp only [appendSpace] at space
    split at space
    · omega
    · omega

/-- `tcp_write` queues segments which fit. -/
theorem fits_tcpWrite
    {pcb next : TcpPcb} {data : List UInt8}
    (fits : ∀ seg ∈ queue pcb, Fits seg)
    (short :
      ∀ last ∈ pcb.unsent.getLast?,
        appendSpace pcb last ≠ 0 → last.pbufClen < 16)
    (written : tcpWrite pcb data = .ok (.ok, next)) :
    ∀ seg ∈ queue next, Fits seg := by
  intro seg member
  have old :
      ∀ other ∈ pcb.unsent, Fits other := fun other inside =>
    fits other (List.mem_append_right _ inside)
  cases writes_of_tcpWrite written with
  | fresh empty created =>
      rcases List.mem_append.mp member with unacked | unsent
      · exact fits seg (List.mem_append_left _ unacked)
      · exact fits_created created seg unsent
  | @behind front last segs total seqno unsent full created =>
      rcases List.mem_append.mp member with unacked | inside
      · exact fits seg (List.mem_append_left _ unacked)
      · rcases List.mem_append.mp inside with before | behind
        · apply old
          rw [unsent]
          exact List.mem_append_left _ before
        · rcases List.mem_cons.mp behind with rfl | new
          · apply old
            rw [unsent]
            exact List.mem_append_right _ List.mem_cons_self
          · exact fits_created created seg new
  | @extending front last taken segs total seqno unsent space positive
      created =>
      rcases List.mem_append.mp member with unacked | inside
      · exact fits seg (List.mem_append_left _ unacked)
      · rcases List.mem_append.mp inside with before | behind
        · apply old
          rw [unsent]
          exact List.mem_append_left _ before
        · rcases List.mem_cons.mp behind with rfl | new
          · have present : last ∈ pcb.unsent.getLast? := by
              rw [unsent, List.getLast?_concat]
              rfl
            have fitsLast : Fits last := by
              apply old
              rw [unsent]
              exact List.mem_append_right _ List.mem_cons_self
            have room : appendSpace pcb last ≠ 0 := by
              intro zero
              rw [zero, Nat.zero_min] at space
              exact positive space.symm
            refine fits_appendRom pcb fitsLast (short last present room) ?_
            rw [List.length_take]
            omega
          · exact fits_created created seg new

/-! ## Every use -/

/-- The invariant of the runs. -/
def AllFit (state : Clocked) : Prop := ∀ seg ∈ queue state.pcb, Fits seg

/-- Only writes make segments which may not fit. -/
theorem fits_use
    {state next : Clocked} {event : Use}
    (fits : AllFit state) (short : shortChains state event)
    (used : use state event = .ok next) :
    AllFit next := by
  have kept {pcb : TcpPcb} (keeps : Keeps state.pcb pcb) :
      ∀ seg ∈ queue pcb, Fits seg :=
    keeps.segs Fits robust_fits fits
  cases event with
  | write data =>
      simp only [use] at used
      split at used
      · cases used
      · next err written attempt =>
          cases used
          rcases tcpWrite_cases attempt with ⟨rfl, _⟩ | ⟨_, same⟩
          · exact fits_tcpWrite fits short attempt
          · rw [same]
            exact fits
  | output inputPcb writes =>
      cases used
      exact kept (keeps_tcpOutput inputPcb writes _)
  | recved inputPcb writes len =>
      cases used
      exact kept (keeps_tcpRecved inputPcb writes _ len)
  | ack =>
      cases used
      exact kept (keeps_tcpAck _)
  | establish =>
      cases used
      exact fits
  | shutdown inputPcb writes =>
      cases used
      exact kept (keeps_tcpShutdown inputPcb writes _)
  | input seg writes =>
      simp only [use] at used
      split at used
      · cases used
        exact kept (keeps_tcpTimewaitInput _ writes seg _)
      · next active =>
          cases used
          exact kept (moved_tcpProcess _ seg active).keeps
  | finSeen =>
      cases used
      exact kept (keeps_creditFin _)
  | slowTick due writes =>
      simp only [use] at used
      split at used
      · cases used
        exact fits
      · next active =>
          split at used
          · cases used
          · next pcb ticked =>
              cases used
              exact kept (keeps_tcpSlowtmr active ticked)
  | fastTick writes =>
      cases used
      exact kept (keeps_tcpFasttmr writes _)

theorem fits_opened (syn : Syn) (iss ticks : Nat) :
    AllFit (opened syn iss ticks) := by
  intro seg member
  have queued :
      queue (opened syn iss ticks).pcb =
        [synAckSegment iss syn.wndScale] :=
    rfl
  rw [queued] at member
  rw [List.mem_singleton.mp member]
  refine ⟨(by decide : 1 ≤ 16), ?_⟩
  have len : (synAckSegment iss syn.wndScale).len = 0 := rfl
  rw [len, Nat.zero_add]
  simp only [synAckSegment]
  split
  · decide
  · decide

/--
In every run whose writes extend no segment of sixteen pbufs, every unsent
segment passes the tests of `tun_output`.
-/
theorem segments_emittable
    {state : Clocked} (reachable : shortSystem.Reachable state) :
    Emittable state.pcb := by
  have fits : AllFit state := by
    refine System.Reachable.invariant ?_ ?_ reachable
    · rintro source ⟨⟨syn, iss, ticks, rfl⟩, _⟩
      exact fits_opened syn iss ticks
    · intro source event target holds permitted used
      exact fits_use holds permitted.2 used
  intro seg member
  exact (fits seg (List.mem_append_right _ member)).emittable state.pcb

/-! ## The handlers of the forwarder -/

/-- Any number of uses. -/
def Uses : Clocked → Clocked → Prop :=
  Relation.ReflTransGen fun before after =>
    ∃ event, mayUse before event ∧ use before event = .ok after

theorem uses_single
    {before after : Clocked} (event : Use)
    (permitted : mayUse before event)
    (used : use before event = .ok after) :
    Uses before after :=
  .single ⟨event, permitted, used⟩

/-- What a handler does to the control block is a sequence of uses. -/
theorem uses_micro
    {live next : Live} (step : Micro live next) (ticks : Nat) :
    Uses ⟨live.pcb, ticks⟩ ⟨next.pcb, ticks⟩ := by
  cases step with
  | @feed bytes written _ room filled short attempt =>
      simp only [mayRead, Bool.and_eq_true, decide_eq_true_eq] at room
      have first :
          Uses ⟨live.pcb, ticks⟩ ⟨written, ticks⟩ := by
        refine uses_single (.write bytes) ?_ ?_
        · exact ⟨filled, short, room.1.2, room.2⟩
        · simp only [use, attempt]
      exact first.trans
        (uses_single (.output live.env.inputPcb (live.env.tun.headD []))
          trivial rfl)
  | shutdown finished =>
      exact uses_single
        (.shutdown live.env.inputPcb (live.env.tun.headD [])) trivial rfl
  | @drain nsent queued bounded =>
      exact uses_single
        (.recved live.env.inputPcb (live.env.tun.headD []) nsent) trivial
        rfl
  | ack => exact uses_single .ack trivial rfl
  | establish => exact uses_single .establish trivial rfl
  | output =>
      exact uses_single
        (.output live.env.inputPcb (live.env.tun.headD [])) trivial rfl
  | refresh => exact .refl
  | evctl mask mode => exact .refl
  | recvFailed errno => exact .refl
  | proxyEnded room => exact .refl
  | sendFailed errno => exact .refl
  | shutFailed setting errno => exact .refl
  | eofShut setting empty due => exact .refl
  | eofDisabled setting empty due => exact .refl

/-- So is what a whole event does. -/
theorem uses_path
    {live last : Live} (path : Path live last) (ticks : Nat) :
    Uses ⟨live.pcb, ticks⟩ ⟨last.pcb, ticks⟩ := by
  induction path with
  | refl => exact .refl
  | tail before step induction =>
      exact induction.trans (uses_micro step ticks)

/-! ## Runs -/

/-- The acknowledgement of the SYN+ACK, with a window. -/
def sampleAck (wnd : Nat) : Segment where
  rst := false
  syn := false
  seqno := 101
  ack := some 6511
  wnd := some wnd
  mss := none
  thirdDupack := false
  cwnd := 4380
  data := []
  fin := false

/-- The control block of a new connection. -/
def sampleOpened : Clocked :=
  opened ⟨100, 64240, some 1460, true, false⟩ 6510 0

/-- The application closes its window, and the proxy sends byte by byte. -/
def sampleUses (bytes : Nat) : List Use :=
  [.establish, .output false [], .input (sampleAck 0) []] ++
    (List.replicate bytes [.write [0], .output false []]).flatten

/-- Fifteen bytes are still within the limit. -/
theorem segments_emittable_fifteen :
    ∃ state,
      shortSystem.Reachable state ∧
        state.pcb.unsent.map TcpSeg.pbufClen = [16] ∧
        Emittable state.pcb := by
  have passes :
      (shortSystem.replay sampleOpened (sampleUses 15)).map
          (fun state =>
            decide (state.pcb.unsent.map TcpSeg.pbufClen = [16])) =
        some true := by
    decide +kernel
  have started : shortSystem.Reachable sampleOpened :=
    .start ⟨⟨_, _, _, rfl⟩, trivial⟩
  rcases started.exists_replay passes with ⟨state, reachable, tested⟩
  exact
    ⟨state, reachable, of_decide_eq_true tested,
      segments_emittable reachable⟩

/-- With the sixteenth byte the segment has seventeen pbufs. -/
theorem segments_not_emittable :
    ¬ ∀ state, pcbSystem.Reachable state → Emittable state.pcb := by
  intro emittable
  have passes :
      (pcbSystem.replay sampleOpened (sampleUses 16)).map
          (fun state =>
            decide (state.pcb.unsent.map TcpSeg.pbufClen = [17])) =
        some true := by
    decide +kernel
  have started : pcbSystem.Reachable sampleOpened := .start ⟨_, _, _, rfl⟩
  rcases started.exists_replay passes with ⟨state, reachable, tested⟩
  have clens := of_decide_eq_true tested
  cases unsent : state.pcb.unsent with
  | nil =>
      rw [unsent] at clens
      cases clens
  | cons seg rest =>
      rw [unsent, List.map_cons] at clens
      have member : seg ∈ state.pcb.unsent := by
        rw [unsent]
        exact List.mem_cons_self
      have bound := (emittable state reachable seg member).1
      rw [(List.cons.inj clens).1] at bound
      revert bound
      decide

end Nsproxy.Core.Segments
