import Mathlib.Tactic.Common
import Nsproxy.Lwip.Queues

/-!
# What the work of lwIP keeps

Segments, timers and the calls of the application change a control block in
many ways.  `Keeps` collects what none of them breaks: the registration of
the callbacks, the accounts of the send queues, and every property of the
queued segments which survives a FIN flag and a split.

`Robust` says which properties of segments these are.
-/

namespace Nsproxy.Lwip.Upkeep

open Nsproxy.Lwip.Opts
open Nsproxy.Lwip.TcpOut
open Nsproxy.Lwip.Tcp
open Nsproxy.Lwip.TcpIn
open Nsproxy.Lwip.TcpTimers
open Nsproxy.Lwip.Queues

/-! ## Properties of segments -/

/-- The property holds of bare FINs, and survives a FIN flag and a split. -/
structure Robust (good : TcpSeg → Prop) : Prop where
  bare : ∀ seqno, good (finSegment seqno)
  flagged : ∀ seg, good seg → good { seg with fin := true }
  head :
    ∀ seg split, good seg → split ≠ 0 → split < seg.len →
      good (splitHead seg split)
  remainder :
    ∀ seg split, good seg → split ≠ 0 → split < seg.len →
      good (splitRemainder seg split)

/-- What no function of lwIP breaks. -/
structure Keeps (before after : TcpPcb) : Prop where
  callbacks : after.callbacks = before.callbacks
  proxyestab : after.proxyestab = before.proxyestab
  rxClosed : after.rxClosed = before.rxClosed
  ipv6 : after.ipv6 = before.ipv6
  sndBuf : before.sndBuf ≤ after.sndBuf
  segs :
    ∀ good, Robust good → (∀ seg ∈ queue before, good seg) →
      ∀ seg ∈ queue after, good seg
  accounted : Accounted before → Accounted after

theorem Keeps.refl (pcb : TcpPcb) : Keeps pcb pcb :=
  ⟨rfl, rfl, rfl, rfl, Nat.le_refl _, fun _ _ => id, id⟩

theorem Keeps.trans
    {first second third : TcpPcb}
    (before : Keeps first second) (after : Keeps second third) :
    Keeps first third where
  callbacks := after.callbacks.trans before.callbacks
  proxyestab := after.proxyestab.trans before.proxyestab
  rxClosed := after.rxClosed.trans before.rxClosed
  ipv6 := after.ipv6.trans before.ipv6
  sndBuf := Nat.le_trans before.sndBuf after.sndBuf
  segs := fun good robust holds =>
    after.segs good robust (before.segs good robust holds)
  accounted := fun holds => after.accounted (before.accounted holds)

/-- The fields of a control block which `Keeps` is about. -/
structure SameCore (before after : TcpPcb) : Prop where
  callbacks : after.callbacks = before.callbacks
  proxyestab : after.proxyestab = before.proxyestab
  rxClosed : after.rxClosed = before.rxClosed
  ipv6 : after.ipv6 = before.ipv6
  sndBuf : after.sndBuf = before.sndBuf
  sndQueuelen : after.sndQueuelen = before.sndQueuelen
  state : after.state = before.state

/-- Segments may be permuted, and one without sequence numbers dropped. -/
theorem SameCore.keeps
    {before after : TcpPcb} (same : SameCore before after)
    (subset : queue after ⊆ queue before)
    (permuted :
      Occupied before.unsent → (queue after).Perm (queue before)) :
    Keeps before after where
  callbacks := same.callbacks
  proxyestab := same.proxyestab
  rxClosed := same.rxClosed
  ipv6 := same.ipv6
  sndBuf := Nat.le_of_eq same.sndBuf.symm
  segs := fun _ _ holds seg member => holds seg (subset member)
  accounted := fun holds =>
    holds.perm permuted same.sndBuf same.sndQueuelen same.state

/-- The queues are the same. -/
theorem SameCore.keeps_same
    {before after : TcpPcb} (same : SameCore before after)
    (queues : queue after = queue before) :
    Keeps before after := by
  apply same.keeps
  · rw [queues]
    exact List.Subset.refl _
  · intro _
    rw [queues]

/-! ## Emitting -/

theorem sameCore_of_emits
    {before after : TcpPcb} (emits : Emits before after) :
    SameCore before after := by
  rcases emits with ⟨_, _, _, _, _, _, _, _, rfl⟩
  exact ⟨rfl, rfl, rfl, rfl, rfl, rfl, rfl⟩

theorem subset_outputLoop
    (segs : List TcpSeg) (writes : List Bool) (pcb : TcpPcb)
    (unsent : pcb.unsent = segs) :
    queue (outputLoop segs writes pcb).2.1 ⊆ queue pcb := by
  induction segs generalizing writes pcb with
  | nil =>
      exact List.Subset.refl _
  | cons seg rest induction =>
      simp only [outputLoop]
      split
      · split
        · refine
            List.Subset.trans
              (induction writes.tail (segmentSent pcb seg rest) rfl) ?_
          intro other member
          rw [queue, unsent]
          rcases List.mem_append.mp member with inside | inside
          · simp only [segmentSent, announce] at inside
            split at inside
            · exact List.mem_append_left _ inside
            · have either :=
                (perm_enqueueUnacked seg pcb.unacked).mem_iff.mp inside
              rcases List.mem_cons.mp either with rfl | old
              · exact List.mem_append_right _ List.mem_cons_self
              · exact List.mem_append_left _ old
          · exact List.mem_append_right _ (List.mem_cons_of_mem seg inside)
        · exact List.Subset.refl _
      · exact List.Subset.refl _

theorem subset_tcpOutput
    (inputPcb : Bool) (writes : List Bool) (pcb : TcpPcb) :
    queue (tcpOutput inputPcb writes pcb).2.1 ⊆ queue pcb := by
  simp only [tcpOutput]
  split
  · exact List.Subset.refl _
  · split
    · exact List.Subset.refl _
    · split
      · split
        · rw [queue_tcpSendEmptyAck]
          exact List.Subset.refl _
        · exact List.Subset.refl _
      · split
        · exact subset_outputLoop pcb.unsent writes
            { pcb with persistBackoff := 0 } rfl
        · split
          · rw [queue_tcpSendEmptyAck, queue_startPersist]
            exact List.Subset.refl _
          · rw [queue_startPersist]
            exact List.Subset.refl _

theorem keeps_tcpOutput
    (inputPcb : Bool) (writes : List Bool) (pcb : TcpPcb) :
    Keeps pcb (tcpOutput inputPcb writes pcb).2.1 :=
  (sameCore_of_emits (emits_tcpOutput inputPcb writes pcb)).keeps
    (subset_tcpOutput inputPcb writes pcb)
    (perm_tcpOutput inputPcb writes pcb)

theorem keeps_tcpRexmit (pcb : TcpPcb) : Keeps pcb (tcpRexmit pcb) := by
  have permuted := perm_tcpRexmit pcb
  have same : SameCore pcb (tcpRexmit pcb) := by
    unfold tcpRexmit
    split
    · exact ⟨rfl, rfl, rfl, rfl, rfl, rfl, rfl⟩
    · exact ⟨rfl, rfl, rfl, rfl, rfl, rfl, rfl⟩
  exact same.keeps permuted.subset fun _ => permuted

theorem keeps_tcpUpdateRcvAnnWnd (pcb : TcpPcb) :
    Keeps pcb (tcpUpdateRcvAnnWnd pcb).1 := by
  rcases tcpUpdateRcvAnnWnd_fst pcb with ⟨window, announced⟩
  rw [announced]
  have same : SameCore pcb { pcb with rcvAnnWnd := window } :=
    ⟨rfl, rfl, rfl, rfl, rfl, rfl, rfl⟩
  exact same.keeps_same rfl

theorem keeps_tcpRecved
    (inputPcb : Bool) (writes : List Bool) (pcb : TcpPcb) (len : Nat) :
    Keeps pcb (tcpRecved inputPcb writes pcb len).1 := by
  have credited : SameCore pcb (creditWindow pcb len) :=
    ⟨rfl, rfl, rfl, rfl, rfl, rfl, rfl⟩
  have announced :=
    (credited.keeps_same rfl).trans
      (keeps_tcpUpdateRcvAnnWnd (creditWindow pcb len))
  simp only [tcpRecved]
  split
  · have flagged :
        SameCore (tcpUpdateRcvAnnWnd (creditWindow pcb len)).1
          { (tcpUpdateRcvAnnWnd (creditWindow pcb len)).1 with
            ackNow := true } :=
      ⟨rfl, rfl, rfl, rfl, rfl, rfl, rfl⟩
    exact (announced.trans (flagged.keeps_same rfl)).trans
      (keeps_tcpOutput inputPcb writes _)
  · exact announced

/-! ## The FIN -/

/-- The FIN flag changes neither measure of a segment. -/
theorem proper_flagged {seg : TcpSeg} (proper : Proper seg) :
    Proper { seg with fin := true } := by
  intro blank
  exact ⟨by simp, (proper blank).2⟩

/-- `tcp_send_fin` queues a bare segment or flags the last one. -/
theorem tcpSendFin_queue (pcb : TcpPcb) :
    (queue (tcpSendFin pcb) = queue pcb ++ [finSegment pcb.sndLbb] ∧
        (tcpSendFin pcb).sndQueuelen = pcb.sndQueuelen + 1) ∨
      ∃ front last,
        queue pcb = front ++ [last] ∧
          queue (tcpSendFin pcb) =
            front ++ [{ last with fin := true }] ∧
          (tcpSendFin pcb).sndQueuelen = pcb.sndQueuelen := by
  unfold tcpSendFin
  split
  · exact .inl ⟨by simp [queue, tcpEnqueueFin], rfl⟩
  · next last present =>
      split
      · exact .inl ⟨by simp [queue, tcpEnqueueFin], rfl⟩
      · refine .inr
          ⟨pcb.unacked ++ pcb.unsent.dropLast, last, ?_, ?_, rfl⟩
        · rw [List.append_assoc,
            List.dropLast_append_getLast? last present]
          rfl
        · simp [queue]

theorem segs_tcpSendFin
    {good : TcpSeg → Prop} (robust : Robust good) {pcb : TcpPcb}
    (holds : ∀ seg ∈ queue pcb, good seg) :
    ∀ seg ∈ queue (tcpSendFin pcb), good seg := by
  rcases tcpSendFin_queue pcb with
    ⟨queued, _⟩ | ⟨front, last, old, new, _⟩
  · intro seg member
    rw [queued] at member
    rcases List.mem_append.mp member with inside | inside
    · exact holds seg inside
    · rw [List.mem_singleton.mp inside]
      exact robust.bare _
  · intro seg member
    rw [old] at holds
    rw [new] at member
    rcases List.mem_append.mp member with inside | inside
    · exact holds seg (List.mem_append_left _ inside)
    · rw [List.mem_singleton.mp inside]
      exact robust.flagged last
        (holds last (List.mem_append_right _ List.mem_cons_self))

theorem queued_tcpSendFin
    {pcb : TcpPcb} (holds : Queued pcb)
    (sends : maySend pcb.state = true) {state : TcpState}
    (ends : maySend state = false) :
    Queued { tcpSendFin pcb with state := state } := by
  have data_ := holds.data
  have clen := holds.clen
  have bare := holds.bare
  rcases tcpSendFin_eq pcb with ⟨_, _, _, fields⟩
  have sndBuf : (tcpSendFin pcb).sndBuf = pcb.sndBuf := by
    rw [fields]
  have before : bareLimit pcb.state = 1 := by
    rw [bareLimit, if_pos sends]
  have after : bareLimit state = 2 := by
    rw [bareLimit, ends]
    rfl
  have moved :
      queue { tcpSendFin pcb with state := state } =
        queue (tcpSendFin pcb) :=
    rfl
  rw [before] at bare
  rcases tcpSendFin_queue pcb with
    ⟨queued, len⟩ | ⟨front, last, old, new, len⟩
  · have blank : (finSegment pcb.sndLbb).len = 0 := rfl
    have single : (finSegment pcb.sndLbb).pbufClen = 1 := rfl
    constructor
    · intro seg member
      rw [moved, queued] at member
      rcases List.mem_append.mp member with inside | inside
      · exact holds.proper seg inside
      · rw [List.mem_singleton.mp inside]
        exact fun _ => ⟨rfl, rfl⟩
    · rw [moved, queued, lens_append, lens_cons, blank, lens_nil, sndBuf]
      omega
    · rw [moved, queued, clens_append, clens_cons, single, clens_nil, len]
      omega
    · rw [moved, queued, blanks_append, blanks_cons, blanks_nil,
        if_pos blank, after]
      omega
  · have length : { last with fin := true }.len = last.len := rfl
    have pbufs : { last with fin := true }.pbufClen = last.pbufClen := rfl
    rw [old, lens_append, lens_cons, lens_nil] at data_
    rw [old, clens_append, clens_cons, clens_nil] at clen
    rw [old, blanks_append, blanks_cons, blanks_nil] at bare
    constructor
    · intro seg member
      rw [moved, new] at member
      rcases List.mem_append.mp member with inside | inside
      · refine holds.proper seg ?_
        rw [old]
        exact List.mem_append_left _ inside
      · rw [List.mem_singleton.mp inside]
        refine proper_flagged (holds.proper last ?_)
        rw [old]
        exact List.mem_append_right _ List.mem_cons_self
    · rw [moved, new, lens_append, lens_cons, length, lens_nil, sndBuf]
      exact data_
    · rw [moved, new, clens_append, clens_cons, pbufs, clens_nil, len]
      exact clen
    · rw [moved, new, blanks_append, blanks_cons, length, blanks_nil,
        after]
      omega

/-- The FIN closes the sending side. -/
theorem keeps_tcpSendFin
    {pcb : TcpPcb} (sends : maySend pcb.state = true)
    {state : TcpState} (ends : maySend state = false) :
    Keeps pcb { tcpSendFin pcb with state := state } := by
  have active : pcb.state ≠ .timeWait := by
    intro waits
    rw [waits] at sends
    cases sends
  rcases tcpSendFin_eq pcb with ⟨_, _, _, fields⟩
  refine ⟨?_, ?_, ?_, ?_, ?_, ?_, ?_⟩
  · rw [fields]
  · rw [fields]
  · rw [fields]
  · rw [fields]
  · exact Nat.le_of_eq (by rw [fields])
  · intro good robust holds
    exact segs_tcpSendFin robust holds
  · intro holds
    exact .inl (queued_tcpSendFin (holds.queued active) sends ends)

theorem keeps_tcpCloseShutdownFin
    (inputPcb : Bool) (writes : List Bool) (pcb : TcpPcb) :
    Keeps pcb (tcpCloseShutdownFin inputPcb writes pcb).1 := by
  unfold tcpCloseShutdownFin
  split
  · next state =>
      have sends : maySend pcb.state = true := by
        rw [state]
        rfl
      exact (keeps_tcpSendFin sends rfl).trans
        (keeps_tcpOutput inputPcb writes _)
  · next state =>
      have sends : maySend pcb.state = true := by
        rw [state]
        rfl
      exact (keeps_tcpSendFin sends rfl).trans
        (keeps_tcpOutput inputPcb writes _)
  · next state =>
      have sends : maySend pcb.state = true := by
        rw [state]
        rfl
      exact (keeps_tcpSendFin sends rfl).trans
        (keeps_tcpOutput inputPcb writes _)
  · exact Keeps.refl pcb

theorem keeps_tcpShutdown
    (inputPcb : Bool) (writes : List Bool) (pcb : TcpPcb) :
    Keeps pcb (tcpShutdown inputPcb writes pcb).1 := by
  unfold tcpShutdown
  split
  · exact keeps_tcpCloseShutdownFin inputPcb writes pcb
  · exact keeps_tcpCloseShutdownFin inputPcb writes pcb
  · exact keeps_tcpCloseShutdownFin inputPcb writes pcb
  · exact Keeps.refl pcb

/-! ## Acknowledgements -/

/-- An acknowledgement frees segments at the front of a queue. -/
theorem tcpFreeAckedSegments_spec (ackno : Nat) (segs : List TcpSeg) :
    ∃ freed,
      segs = freed ++ (tcpFreeAckedSegments ackno segs).1 ∧
        (tcpFreeAckedSegments ackno segs).2.1 = lens freed ∧
        (tcpFreeAckedSegments ackno segs).2.2 = clens freed := by
  induction segs with
  | nil =>
      exact ⟨[], rfl, rfl, rfl⟩
  | cons seg rest induction =>
      rcases induction with ⟨freed, split, acked, count⟩
      simp only [tcpFreeAckedSegments]
      split
      · refine ⟨seg :: freed, ?_, ?_, ?_⟩
        · rw [List.cons_append, ← split]
        · rw [lens_cons, acked]
          exact Nat.add_comm _ _
        · rw [clens_cons, count]
          exact Nat.add_comm _ _
      · exact ⟨[], rfl, rfl, rfl⟩

theorem queued_ackNewData
    {pcb : TcpPcb} (holds : Queued pcb) (seg : Segment) (ackno : Nat) :
    Queued (ackNewData seg ackno pcb).1 := by
  rcases tcpFreeAckedSegments_spec ackno pcb.unacked with
    ⟨freed, unacked, ackedLen, ackedCount⟩
  rcases tcpFreeAckedSegments_spec ackno pcb.unsent with
    ⟨dropped, unsent, droppedLen, droppedCount⟩
  have data_ := holds.data
  have clen := holds.clen
  have bare := holds.bare
  rw [queue, unacked, unsent] at data_ clen bare
  simp only [lens_append] at data_
  simp only [clens_append] at clen
  simp only [blanks_append] at bare
  constructor
  · intro other member
    refine holds.proper other ?_
    rcases List.mem_append.mp member with inside | inside
    · refine List.mem_append_left _ ?_
      rw [unacked]
      exact List.mem_append_right _ inside
    · refine List.mem_append_right _ ?_
      rw [unsent]
      exact List.mem_append_right _ inside
  · simp only [queue, ackNewData, lens_append, ackedLen, droppedLen]
    omega
  · simp only [queue, ackNewData, clens_append, ackedCount,
      droppedCount]
    omega
  · simp only [queue, ackNewData, blanks_append]
    omega

theorem keeps_ackNewData
    (seg : Segment) (ackno : Nat) {pcb : TcpPcb}
    (active : pcb.state ≠ .timeWait) :
    Keeps pcb (ackNewData seg ackno pcb).1 where
  callbacks := rfl
  proxyestab := rfl
  rxClosed := rfl
  ipv6 := rfl
  sndBuf := Nat.le_add_right _ _
  segs := by
    intro good _ holds other member
    rcases tcpFreeAckedSegments_spec ackno pcb.unacked with
      ⟨freed, unacked, _⟩
    rcases tcpFreeAckedSegments_spec ackno pcb.unsent with
      ⟨dropped, unsent, _⟩
    rcases List.mem_append.mp member with inside | inside
    · refine holds other (List.mem_append_left _ ?_)
      rw [unacked]
      exact List.mem_append_right _ inside
    · refine holds other (List.mem_append_right _ ?_)
      rw [unsent]
      exact List.mem_append_right _ inside
  accounted := fun holds =>
    .inl (queued_ackNewData (holds.queued active) seg ackno)

theorem sameCore_updateWindow (seg : Segment) (pcb : TcpPcb) :
    SameCore pcb (updateWindow seg pcb) := by
  unfold updateWindow
  split <;> exact ⟨rfl, rfl, rfl, rfl, rfl, rfl, rfl⟩

theorem keeps_updateWindow (seg : Segment) (pcb : TcpPcb) :
    Keeps pcb (updateWindow seg pcb) := by
  apply (sameCore_updateWindow seg pcb).keeps_same
  unfold updateWindow
  split <;> rfl

theorem keeps_receiveAck
    (seg : Segment) {pcb : TcpPcb} (active : pcb.state ≠ .timeWait) :
    Keeps pcb (receiveAck seg pcb).1 := by
  simp only [receiveAck]
  split
  · exact Keeps.refl pcb
  · next ackno present =>
      have updated := keeps_updateWindow seg pcb
      have still : (updateWindow seg pcb).state ≠ .timeWait := by
        rw [(sameCore_updateWindow seg pcb).state]
        exact active
      split
      · split
        · have repeated := keeps_tcpRexmit (updateWindow seg pcb)
          have tuned :
              SameCore (tcpRexmit (updateWindow seg pcb))
                { tcpRexmit (updateWindow seg pcb) with
                  cwnd := seg.cwnd } :=
            ⟨rfl, rfl, rfl, rfl, rfl, rfl, rfl⟩
          exact (updated.trans repeated).trans (tuned.keeps_same rfl)
        · have tuned :
              SameCore (updateWindow seg pcb)
                { updateWindow seg pcb with cwnd := seg.cwnd } :=
            ⟨rfl, rfl, rfl, rfl, rfl, rfl, rfl⟩
          exact updated.trans (tuned.keeps_same rfl)
      · split
        · exact updated.trans (keeps_ackNewData seg ackno still)
        · have tuned :
              SameCore (updateWindow seg pcb)
                { updateWindow seg pcb with
                  ackDelay := false
                  ackNow := false } :=
            ⟨rfl, rfl, rfl, rfl, rfl, rfl, rfl⟩
          exact updated.trans (tuned.keeps_same rfl)

/-- What is reported as acknowledged was given back to the send buffer. -/
theorem acked_receiveAck (seg : Segment) (pcb : TcpPcb) :
    pcb.sndBuf + (receiveAck seg pcb).2 ≤
      (receiveAck seg pcb).1.sndBuf := by
  have updated := (keeps_updateWindow seg pcb).sndBuf
  have same := (sameCore_updateWindow seg pcb).sndBuf
  simp only [receiveAck]
  split
  · exact Nat.le_refl _
  · split
    · split
      · have repeated := (keeps_tcpRexmit (updateWindow seg pcb)).sndBuf
        exact Nat.le_trans updated repeated
      · exact updated
    · split
      · simp only [ackNewData, same]
        exact Nat.le_refl _
      · exact updated

theorem state_receiveAck (seg : Segment) (pcb : TcpPcb) :
    (receiveAck seg pcb).1.state = pcb.state := by
  have same := (sameCore_updateWindow seg pcb).state
  simp only [receiveAck]
  split
  · rfl
  · split
    · split
      · unfold tcpRexmit
        split <;> exact same
      · exact same
    · split <;> exact same

/-! ## Incoming segments -/

theorem sameCore_tcpAck (pcb : TcpPcb) : SameCore pcb (tcpAck pcb) := by
  unfold tcpAck
  split <;> exact ⟨rfl, rfl, rfl, rfl, rfl, rfl, rfl⟩

theorem keeps_tcpAck (pcb : TcpPcb) : Keeps pcb (tcpAck pcb) := by
  apply (sameCore_tcpAck pcb).keeps_same
  unfold tcpAck
  split <;> rfl

theorem keeps_receiveData (seg : Segment) (pcb : TcpPcb) :
    Keeps pcb (receiveData seg pcb) := by
  have advanced :
      SameCore pcb
        { pcb with
          rcvNxt := pcb.rcvNxt + seg.delivered
          rcvWnd := pcb.rcvWnd - seg.delivered } :=
    ⟨rfl, rfl, rfl, rfl, rfl, rfl, rfl⟩
  exact ((advanced.keeps_same rfl).trans
    (keeps_tcpUpdateRcvAnnWnd _)).trans (keeps_tcpAck _)

theorem state_receiveData (seg : Segment) (pcb : TcpPcb) :
    (receiveData seg pcb).state = pcb.state := by
  rw [receiveData, (sameCore_tcpAck _).state]
  rcases tcpUpdateRcvAnnWnd_fst
      { pcb with
        rcvNxt := pcb.rcvNxt + seg.delivered
        rcvWnd := pcb.rcvWnd - seg.delivered } with
    ⟨window, announced⟩
  rw [announced]

theorem keeps_tcpReceive
    (seg : Segment) {pcb : TcpPcb} (active : pcb.state ≠ .timeWait) :
    Keeps pcb (tcpReceive seg pcb).pcb := by
  have acknowledged := keeps_receiveAck seg active
  simp only [tcpReceive]
  split
  · exact acknowledged.trans (keeps_receiveData seg _)
  · exact acknowledged

theorem state_tcpReceive (seg : Segment) (pcb : TcpPcb) :
    (tcpReceive seg pcb).pcb.state = pcb.state := by
  have acknowledged := state_receiveAck seg pcb
  simp only [tcpReceive]
  split
  · exact (state_receiveData seg _).trans acknowledged
  · exact acknowledged

theorem acked_tcpReceive (seg : Segment) (pcb : TcpPcb) :
    pcb.sndBuf + (tcpReceive seg pcb).acked ≤
      (tcpReceive seg pcb).pcb.sndBuf := by
  have acknowledged := acked_receiveAck seg pcb
  simp only [tcpReceive]
  split
  · exact Nat.le_trans acknowledged (keeps_receiveData seg _).sndBuf
  · exact acknowledged

/-- The state of a connection moves on. -/
theorem keeps_move
    {pcb : TcpPcb} (active : pcb.state ≠ .timeWait) {state : TcpState}
    (same : maySend state = maySend pcb.state) (ackNow : Bool)
    (cwnd : Nat) :
    Keeps pcb
      { pcb with state := state, ackNow := ackNow, cwnd := cwnd } where
  callbacks := rfl
  proxyestab := rfl
  rxClosed := rfl
  ipv6 := rfl
  sndBuf := Nat.le_refl _
  segs := fun _ _ => id
  accounted := fun holds =>
    .inl ((holds.queued active).perm (.refl _) rfl rfl same)

theorem keeps_enterTimeWait
    {pcb : TcpPcb} (active : pcb.state ≠ .timeWait) :
    Keeps pcb (enterTimeWait pcb) where
  callbacks := rfl
  proxyestab := rfl
  rxClosed := rfl
  ipv6 := rfl
  sndBuf := Nat.le_refl _
  segs := by
    intro good _ _ seg member
    cases member
  accounted := fun holds =>
    .inr ⟨rfl, holds.sndBuf_le, (holds.queued active).slack⟩

/-- The segment made the connection move on, and this much was acknowledged. -/
structure Moved (pcb : TcpPcb) (processed : Processed) : Prop where
  keeps : Keeps pcb processed.pcb
  acked : pcb.sndBuf + processed.acked ≤ processed.pcb.sndBuf

theorem moved_quiet
    {pcb next : TcpPcb} (keeps : Keeps pcb next) :
    Moved pcb (.quiet next) :=
  ⟨keeps, keeps.sndBuf⟩

theorem moved_received
    (seg : Segment) {pcb next : TcpPcb}
    (active : pcb.state ≠ .timeWait)
    (keeps : Keeps (tcpReceive seg pcb).pcb next) :
    Moved pcb (.received (tcpReceive seg pcb) next) :=
  ⟨(keeps_tcpReceive seg active).trans keeps,
    Nat.le_trans (acked_tcpReceive seg pcb) keeps.sndBuf⟩

theorem moved_processSynchronized
    (seg : Segment) {pcb : TcpPcb} (active : pcb.state ≠ .timeWait) :
    Moved pcb (processSynchronized seg pcb) := by
  have state := state_tcpReceive seg pcb
  have still : (tcpReceive seg pcb).pcb.state ≠ .timeWait := by
    rw [state]
    exact active
  have stays :=
    moved_received seg active (Keeps.refl (tcpReceive seg pcb).pcb)
  have waits :=
    moved_received seg active (keeps_enterTimeWait still)
  have moves :
      ∀ next ackNow, maySend next = maySend pcb.state →
        Moved pcb
          (.received (tcpReceive seg pcb)
            { (tcpReceive seg pcb).pcb with
              state := next
              ackNow := ackNow }) := by
    intro next ackNow same
    refine moved_received seg active ?_
    exact keeps_move still (by rw [state]; exact same) ackNow
      (tcpReceive seg pcb).pcb.cwnd
  simp only [processSynchronized]
  split
  · next now =>
      rw [now] at moves
      split
      · exact moves .closeWait true rfl
      · exact stays
  · next now =>
      rw [now] at moves
      split
      · exact moves .closeWait true rfl
      · exact stays
  · next now =>
      rw [now] at moves
      split
      · split
        · exact waits
        · exact moves .closing true rfl
      · split
        · exact moves .finWait2 (tcpReceive seg pcb).pcb.ackNow rfl
        · exact stays
  · split
    · exact waits
    · exact stays
  · split
    · exact waits
    · exact stays
  · exact ⟨stays.keeps, stays.acked⟩
  · exact moved_quiet (Keeps.refl pcb)

/-- The handshake ends with this segment. -/
theorem moved_opened
    (seg : Segment) {pcb next : TcpPcb}
    (synRcvd : pcb.state = .synRcvd)
    (keeps :
      Keeps (tcpReceive seg { pcb with state := .established }).pcb next) :
    Moved pcb
      { Processed.received
          (tcpReceive seg { pcb with state := .established }) next with
        acked :=
          (tcpReceive seg { pcb with state := .established }).acked -
            1 } := by
  have active : pcb.state ≠ .timeWait := by
    rw [synRcvd]
    exact TcpState.noConfusion
  have opened : Keeps pcb { pcb with state := .established } :=
    keeps_move active (by rw [synRcvd]; rfl) pcb.ackNow pcb.cwnd
  have still :
      { pcb with state := TcpState.established }.state ≠ .timeWait :=
    TcpState.noConfusion
  have received := moved_received seg still keeps
  refine ⟨opened.trans received.keeps, ?_⟩
  exact Nat.le_trans (Nat.add_le_add_left (Nat.sub_le _ 1) _)
    received.acked

theorem moved_processSynRcvd
    (seg : Segment) {pcb : TcpPcb} (synRcvd : pcb.state = .synRcvd) :
    Moved pcb (processSynRcvd seg pcb) := by
  simp only [processSynRcvd]
  split
  · split
    · have state :=
        state_tcpReceive seg { pcb with state := .established }
      have active :
          (tcpReceive seg
            { pcb with state := .established }).pcb.state ≠
              .timeWait := by
        rw [state]
        exact TcpState.noConfusion
      refine moved_opened seg synRcvd ?_
      split
      · exact keeps_move active (by rw [state]; rfl) _ _
      · exact keeps_move active rfl _ _
    · exact moved_quiet (Keeps.refl pcb)
  · split
    · exact moved_quiet (keeps_tcpRexmit pcb)
    · exact moved_quiet (Keeps.refl pcb)

theorem sameCore_refreshPcb
    (ticks : Nat) (seg : Segment) (pcb : TcpPcb) :
    SameCore pcb (refreshPcb ticks seg pcb) :=
  ⟨rfl, rfl, rfl, rfl, rfl, rfl, rfl⟩

theorem Moved.after
    {before pcb : TcpPcb} {processed : Processed}
    (keeps : Keeps before pcb) (moved : Moved pcb processed) :
    Moved before processed := by
  refine ⟨keeps.trans moved.keeps, ?_⟩
  exact Nat.le_trans (Nat.add_le_add_right keeps.sndBuf _) moved.acked

theorem moved_tcpProcess
    (ticks : Nat) (seg : Segment) {pcb : TcpPcb}
    (active : pcb.state ≠ .timeWait) :
    Moved pcb (tcpProcess ticks seg pcb) := by
  have flagged : SameCore pcb { pcb with ackNow := true } :=
    ⟨rfl, rfl, rfl, rfl, rfl, rfl, rfl⟩
  have prompt := moved_quiet (flagged.keeps_same rfl)
  have refreshed := sameCore_refreshPcb ticks seg pcb
  have keeps : Keeps pcb (refreshPcb ticks seg pcb) :=
    refreshed.keeps_same rfl
  simp only [tcpProcess]
  split
  · split
    · have undelayed : SameCore pcb { pcb with ackDelay := false } :=
        ⟨rfl, rfl, rfl, rfl, rfl, rfl, rfl⟩
      have quiet := moved_quiet (undelayed.keeps_same rfl)
      exact ⟨quiet.keeps, quiet.acked⟩
    · split
      · exact prompt
      · exact moved_quiet (Keeps.refl pcb)
  · split
    · exact prompt
    · split
      · next synRcvd =>
          refine (moved_processSynRcvd seg ?_).after keeps
          exact refreshed.state.trans synRcvd
      · refine (moved_processSynchronized seg ?_).after keeps
        rw [refreshed.state]
        exact active

theorem keeps_tcpTimewaitInput
    (ticks : Nat) (writes : List Bool) (seg : Segment) (pcb : TcpPcb) :
    Keeps pcb (tcpTimewaitInput ticks writes seg pcb) := by
  have restarted :
      Keeps pcb
        (if seg.fin && !seg.syn then { pcb with tmr := ticks }
        else pcb) := by
    split
    · have same : SameCore pcb { pcb with tmr := ticks } :=
        ⟨rfl, rfl, rfl, rfl, rfl, rfl, rfl⟩
      exact same.keeps_same rfl
    · exact Keeps.refl pcb
  simp only [tcpTimewaitInput]
  split
  · exact Keeps.refl pcb
  · split
    · exact Keeps.refl pcb
    · split
      · refine restarted.trans (.trans ?_ (keeps_tcpOutput false writes _))
        exact SameCore.keeps_same ⟨rfl, rfl, rfl, rfl, rfl, rfl, rfl⟩ rfl
      · exact restarted

theorem keeps_creditFin (pcb : TcpPcb) : Keeps pcb (creditFin pcb) := by
  unfold creditFin
  split
  · exact SameCore.keeps_same ⟨rfl, rfl, rfl, rfl, rfl, rfl, rfl⟩ rfl
  · exact Keeps.refl pcb

/-! ## Splitting and the timers -/

theorem length_trimRoms
    {len : Nat} {roms : List (List UInt8)}
    (inside : len ≤ roms.flatten.length) :
    (trimRoms len roms).flatten.length = len := by
  induction roms generalizing len with
  | nil =>
      simp only [List.flatten_nil, List.length_nil,
        Nat.le_zero] at inside
      simp [trimRoms, inside]
  | cons rom rest induction =>
      simp only [List.flatten_cons, List.length_append] at inside
      simp only [trimRoms]
      split
      · next short =>
          simp [short]
      · next long =>
          have tail := @induction (len - rom.length) (by omega)
          simp only [List.flatten_cons, List.length_append, tail]
          omega

theorem length_trimRoms_le (len : Nat) (roms : List (List UInt8)) :
    (trimRoms len roms).length ≤ roms.length := by
  induction roms generalizing len with
  | nil =>
      exact Nat.le_refl _
  | cons rom rest induction =>
      simp only [trimRoms]
      split
      · simp
      · simpa using induction (len - rom.length)

theorem len_splitHead
    {seg : TcpSeg} {split : Nat} (inside : split < seg.len) :
    (splitHead seg split).len = split := by
  simp only [TcpSeg.len, TcpSeg.data, List.length_append] at inside
  simp only [splitHead]
  split
  · next short =>
      simp [TcpSeg.len, TcpSeg.data, short]
  · next long =>
      simp only [TcpSeg.len, TcpSeg.data, List.length_append]
      rw [length_trimRoms (by omega)]
      omega

theorem pbufClen_splitHead_le (seg : TcpSeg) (split : Nat) :
    (splitHead seg split).pbufClen ≤ seg.pbufClen := by
  simp only [splitHead]
  split
  · simp [TcpSeg.pbufClen]
  · have shorter :=
      length_trimRoms_le (split - seg.inline.length) seg.roms
    simp only [TcpSeg.pbufClen]
    omega

theorem len_splitRemainder (seg : TcpSeg) (split : Nat) :
    (splitRemainder seg split).len = seg.len - split := by
  simp [splitRemainder, TcpSeg.len, TcpSeg.data]

theorem optlen_splitHead (seg : TcpSeg) (split : Nat) :
    (splitHead seg split).optlen = seg.optlen := by
  simp only [splitHead]
  split <;> rfl

/-- The control block after its first unsent segment was split. -/
def splitPcb
    (pcb : TcpPcb) (seg : TcpSeg) (rest : List TcpSeg) (split : Nat) :
    TcpPcb :=
  { pcb with
    unsent := splitHead seg split :: splitRemainder seg split :: rest
    sndQueuelen :=
      pcb.sndQueuelen - seg.pbufClen + (splitHead seg split).pbufClen +
        1 }

theorem queued_splitPcb
    {pcb : TcpPcb} (holds : Queued pcb) {seg : TcpSeg}
    {rest : List TcpSeg} (unsent : pcb.unsent = seg :: rest)
    {split : Nat} (positive : split ≠ 0) (inside : split < seg.len) :
    Queued (splitPcb pcb seg rest split) := by
  have data_ := holds.data
  have clen := holds.clen
  have bare := holds.bare
  have headLen := len_splitHead inside
  have tailLen := len_splitRemainder seg split
  have single : (splitRemainder seg split).pbufClen = 1 := rfl
  have filled : ¬ seg.len = 0 := by omega
  have headFilled : ¬ (splitHead seg split).len = 0 := by omega
  have tailFilled : ¬ (splitRemainder seg split).len = 0 := by omega
  simp only [queue, unsent, lens_append, clens_append, blanks_append,
    lens_cons, clens_cons, blanks_cons, if_neg filled] at data_ clen bare
  constructor
  · intro other member
    simp only [queue, splitPcb, List.mem_append, List.mem_cons] at member
    rcases member with old | rfl | rfl | old
    · exact holds.proper other (List.mem_append_left _ old)
    · intro blank
      exact absurd blank headFilled
    · intro blank
      exact absurd blank tailFilled
    · refine holds.proper other (List.mem_append_right _ ?_)
      rw [unsent]
      exact List.mem_cons_of_mem seg old
  · simp only [queue, splitPcb, lens_append, lens_cons]
    omega
  · simp only [queue, splitPcb, clens_append, clens_cons, single]
    omega
  · simp only [queue, splitPcb, blanks_append, blanks_cons,
      if_neg headFilled, if_neg tailFilled]
    exact bare

theorem keeps_tcpSplitUnsentSeg
    {pcb next : TcpPcb} {split : Nat}
    (active : pcb.state ≠ .timeWait)
    (done : tcpSplitUnsentSeg pcb split = .ok next) :
    Keeps pcb next := by
  simp only [tcpSplitUnsentSeg] at done
  split at done
  · cases done
    exact Keeps.refl pcb
  · next seg rest unsent =>
      split at done
      · cases done
      · next positive =>
          split at done
          · cases done
            exact Keeps.refl pcb
          · next longer =>
              split at done
              · cases done
              · cases done
                have inside : split < seg.len := Nat.lt_of_not_le longer
                refine ⟨rfl, rfl, rfl, rfl, Nat.le_refl _, ?_, ?_⟩
                · intro good robust holds other member
                  have first : good seg := by
                    refine holds seg (List.mem_append_right _ ?_)
                    rw [unsent]
                    exact List.mem_cons_self
                  rcases List.mem_append.mp member with old | new
                  · exact holds other (List.mem_append_left _ old)
                  · rcases List.mem_cons.mp new with rfl | later
                    · exact robust.head seg split first positive inside
                    · rcases List.mem_cons.mp later with rfl | old
                      · exact robust.remainder seg split first positive
                          inside
                      · refine holds other (List.mem_append_right _ ?_)
                        rw [unsent]
                        exact List.mem_cons_of_mem seg old
                · intro holds
                  exact .inl
                    (queued_splitPcb (holds.queued active) unsent
                      positive inside)

theorem keeps_tcpZeroWindowProbe (pcb : TcpPcb) :
    Keeps pcb (tcpZeroWindowProbe pcb) := by
  unfold tcpZeroWindowProbe
  split
  · exact Keeps.refl pcb
  · exact SameCore.keeps_same ⟨rfl, rfl, rfl, rfl, rfl, rfl, rfl⟩ rfl

theorem keeps_nextSlot (pcb : TcpPcb) : Keeps pcb (nextSlot pcb) :=
  SameCore.keeps_same ⟨rfl, rfl, rfl, rfl, rfl, rfl, rfl⟩ rfl

theorem keeps_persistTimeout
    {writes : List Bool} {pcb next : TcpPcb}
    (active : pcb.state ≠ .timeWait)
    (done : persistTimeout writes pcb = .ok next) :
    Keeps pcb next := by
  simp only [persistTimeout] at done
  split at done
  · split at done
    · cases done
      exact (keeps_tcpZeroWindowProbe pcb).trans (keeps_nextSlot _)
    · cases done
      exact keeps_tcpZeroWindowProbe pcb
  · split at done
    · cases done
    · next mid halved =>
        have keeps :=
          (keeps_tcpSplitUnsentSeg active halved).trans
            (keeps_tcpOutput false writes mid)
        split at done
        · next last emitted sent =>
            cases done
            rw [sent] at keeps
            exact keeps
        · next err last emitted refused sent =>
            cases done
            rw [sent] at keeps
            exact keeps.trans (keeps_nextSlot last)

theorem keeps_retransmit (writes : List Bool) (pcb : TcpPcb) :
    Keeps pcb (retransmit writes pcb) := by
  simp only [retransmit]
  split
  · exact Keeps.refl pcb
  · refine .trans ?_ (keeps_tcpOutput false writes _)
    exact SameCore.keeps_same ⟨rfl, rfl, rfl, rfl, rfl, rfl, rfl⟩ rfl

theorem keeps_tcpSlowtmr
    {due : Bool} {writes : List Bool} {pcb next : TcpPcb}
    (active : pcb.state ≠ .timeWait)
    (done : tcpSlowtmr due writes pcb = .ok next) :
    Keeps pcb next := by
  simp only [tcpSlowtmr] at done
  split at done
  · split at done
    · cases done
    · split at done
      · split at done
        · cases done
        · next mid probed =>
            cases done
            exact (keeps_persistTimeout active probed).trans
              (keeps_tcpOutput false writes mid)
      · cases done
        exact keeps_tcpOutput false writes pcb
  · split at done
    · cases done
      exact (keeps_retransmit writes pcb).trans
        (keeps_tcpOutput false writes _)
    · cases done
      exact keeps_tcpOutput false writes pcb

theorem keeps_tcpFasttmr (writes : List Bool) (pcb : TcpPcb) :
    Keeps pcb (tcpFasttmr writes pcb) := by
  simp only [tcpFasttmr]
  split
  · have flagged : Keeps pcb { pcb with ackNow := true } :=
      SameCore.keeps_same ⟨rfl, rfl, rfl, rfl, rfl, rfl, rfl⟩ rfl
    refine (flagged.trans (keeps_tcpOutput false writes _)).trans ?_
    exact SameCore.keeps_same ⟨rfl, rfl, rfl, rfl, rfl, rfl, rfl⟩ rfl
  · exact Keeps.refl pcb

/-! ## New connections -/

/-- The SYN+ACK is all there is on the queues of a new connection. -/
theorem accounted_tcpListenInput (syn : Syn) (iss ticks : Nat) :
    Accounted (tcpListenInput syn iss ticks) := by
  have queued :
      queue (tcpListenInput syn iss ticks) =
        [synAckSegment iss syn.wndScale] :=
    rfl
  have blank : (synAckSegment iss syn.wndScale).len = 0 := rfl
  have single : (synAckSegment iss syn.wndScale).pbufClen = 1 := rfl
  refine .inl ⟨?_, ?_, ?_, ?_⟩
  · intro seg member
    rw [queued] at member
    rw [List.mem_singleton.mp member]
    exact fun _ => ⟨rfl, rfl⟩
  · rw [queued, lens_cons, blank, lens_nil, Nat.zero_add]
    rfl
  · rw [queued, clens_cons, single, clens_nil]
    rfl
  · rw [queued, blanks_cons, if_pos blank, blanks_nil]
    exact Nat.le_refl _

end Nsproxy.Lwip.Upkeep
