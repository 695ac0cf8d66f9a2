import Mathlib.Tactic.Common
import Nsproxy.Lwip.Upkeep

/-!
# The sending side of a connection

Only `tcp_shutdown` and `tcp_close` end the sending side; a segment of the
application or a timer leaves it as it is.  While it is open, `tcp_write`
takes a chunk of at most one segment size, provided that the application has
announced a window which is not tiny: the chunk is cut into segments of half
the largest window, and the queue must have room for all of them.
-/

namespace Nsproxy.Lwip.Sending

open Nsproxy.Lwip.Opts
open Nsproxy.Lwip.TcpOut
open Nsproxy.Lwip.Tcp
open Nsproxy.Lwip.TcpIn
open Nsproxy.Lwip.TcpTimers
open Nsproxy.Lwip.Queues
open Nsproxy.Lwip.Upkeep

/-! ## Who ends the sending side -/

theorem state_tcpOutput
    (inputPcb : Bool) (writes : List Bool) (pcb : TcpPcb) :
    (tcpOutput inputPcb writes pcb).2.1.state = pcb.state :=
  (sameCore_of_emits (emits_tcpOutput inputPcb writes pcb)).state

theorem state_tcpAck (pcb : TcpPcb) : (tcpAck pcb).state = pcb.state :=
  (sameCore_tcpAck pcb).state

theorem state_tcpRecved
    (inputPcb : Bool) (writes : List Bool) (pcb : TcpPcb) (len : Nat) :
    (tcpRecved inputPcb writes pcb len).1.state = pcb.state := by
  rcases (credits_tcpRecved inputPcb writes pcb len).1 with
    ⟨_, _, _, _, _, _, _, _, _, _, credited⟩
  rw [credited]

theorem state_tcpWrite
    {pcb next : TcpPcb} {data : List UInt8} {err : ErrT}
    (written : tcpWrite pcb data = .ok (err, next)) :
    next.state = pcb.state := by
  rcases tcpWrite_cases written with ⟨_, _, _, rfl⟩ | ⟨_, rfl⟩
  · rfl
  · rfl

theorem state_tcpRexmit (pcb : TcpPcb) :
    (tcpRexmit pcb).state = pcb.state := by
  unfold tcpRexmit
  split
  · rfl
  · rfl

theorem state_creditFin (pcb : TcpPcb) :
    (creditFin pcb).state = pcb.state := by
  unfold creditFin
  split
  · rfl
  · rfl

/-- `tcp_shutdown` ends the sending side, whatever the state. -/
theorem maySend_tcpShutdown
    (inputPcb : Bool) (writes : List Bool) (pcb : TcpPcb) :
    maySend (tcpShutdown inputPcb writes pcb).1.state = false := by
  cases state : pcb.state with
  | synRcvd =>
      simp only [tcpShutdown, tcpCloseShutdownFin, state, state_tcpOutput]
      rfl
  | established =>
      simp only [tcpShutdown, tcpCloseShutdownFin, state, state_tcpOutput]
      rfl
  | closeWait =>
      simp only [tcpShutdown, tcpCloseShutdownFin, state, state_tcpOutput]
      rfl
  | _ =>
      simp only [tcpShutdown, state]
      rfl

/-- Once the sending side has ended, `tcp_close` emits nothing. -/
theorem tcpClose_silent
    (inputPcb : Bool) (writes : List Bool) {pcb : TcpPcb}
    (ended : maySend pcb.state = false) :
    (tcpClose inputPcb writes pcb).2.2 = [] := by
  cases state : pcb.state with
  | synRcvd =>
      rw [state] at ended
      cases ended
  | established =>
      rw [state] at ended
      cases ended
  | closeWait =>
      rw [state] at ended
      cases ended
  | _ => simp [tcpClose, tcpCloseShutdownFin, closeResets, state]

/-! ## Segments and timers -/

theorem maySend_processSynchronized (seg : Segment) (pcb : TcpPcb) :
    maySend (processSynchronized seg pcb).pcb.state =
      maySend pcb.state := by
  have same := state_tcpReceive seg pcb
  cases state : pcb.state with
  | established =>
      simp only [processSynchronized, state]
      split
      · rfl
      · rw [Processed.received, same, state]
  | closeWait =>
      simp only [processSynchronized, state]
      split
      · rfl
      · rw [Processed.received, same, state]
  | finWait1 =>
      simp only [processSynchronized, state]
      split
      · split
        · rfl
        · rfl
      · split
        · rfl
        · rw [Processed.received, same, state]
  | finWait2 =>
      simp only [processSynchronized, state]
      split
      · rfl
      · rw [Processed.received, same, state]
  | closing =>
      simp only [processSynchronized, state]
      split
      · rfl
      · rw [Processed.received, same, state]
  | lastAck =>
      simp only [processSynchronized, state]
      rw [Processed.received, same, state]
  | _ =>
      simp only [processSynchronized, state]
      rw [Processed.quiet, state]

theorem maySend_processSynRcvd
    (seg : Segment) {pcb : TcpPcb} (synRcvd : pcb.state = .synRcvd) :
    maySend (processSynRcvd seg pcb).pcb.state = true := by
  have same := state_tcpReceive seg { pcb with state := .established }
  simp only [processSynRcvd]
  split
  · split
    · simp only [Processed.received]
      split
      · rfl
      · rw [same]
        rfl
    · rw [Processed.quiet, synRcvd]
      rfl
  · split
    · rw [Processed.quiet, state_tcpRexmit, synRcvd]
      rfl
    · rw [Processed.quiet, synRcvd]
      rfl

/-- A segment of the application does not end the sending side. -/
theorem maySend_tcpProcess (ticks : Nat) (seg : Segment) (pcb : TcpPcb) :
    maySend (tcpProcess ticks seg pcb).pcb.state = maySend pcb.state := by
  have refreshed := (sameCore_refreshPcb ticks seg pcb).state
  simp only [tcpProcess]
  split
  · split
    · rfl
    · split
      · rfl
      · rfl
  · split
    · rfl
    · split
      · next synRcvd =>
          rw [maySend_processSynRcvd seg (refreshed.trans synRcvd), synRcvd]
          rfl
      · rw [maySend_processSynchronized, refreshed]

theorem state_tcpTimewaitInput
    (ticks : Nat) (writes : List Bool) (seg : Segment) (pcb : TcpPcb) :
    (tcpTimewaitInput ticks writes seg pcb).state = pcb.state := by
  have restarted :
      (if seg.fin && !seg.syn then { pcb with tmr := ticks }
        else pcb).state = pcb.state := by
    split
    · rfl
    · rfl
  simp only [tcpTimewaitInput]
  split
  · rfl
  · split
    · rfl
    · split
      · rw [state_tcpOutput]
        exact restarted
      · exact restarted

theorem state_tcpZeroWindowProbe (pcb : TcpPcb) :
    (tcpZeroWindowProbe pcb).state = pcb.state := by
  unfold tcpZeroWindowProbe
  split
  · rfl
  · rfl

theorem state_tcpSplitUnsentSeg
    {pcb next : TcpPcb} {split : Nat}
    (done_ : tcpSplitUnsentSeg pcb split = .ok next) :
    next.state = pcb.state := by
  simp only [tcpSplitUnsentSeg] at done_
  split at done_
  · cases done_
    rfl
  · split at done_
    · cases done_
    · split at done_
      · cases done_
        rfl
      · split at done_
        · cases done_
        · cases done_
          rfl

theorem state_persistTimeout
    {writes : List Bool} {pcb next : TcpPcb}
    (done_ : persistTimeout writes pcb = .ok next) :
    next.state = pcb.state := by
  simp only [persistTimeout] at done_
  split at done_
  · split at done_
    · cases done_
      exact state_tcpZeroWindowProbe pcb
    · cases done_
      exact state_tcpZeroWindowProbe pcb
  · split at done_
    · cases done_
    · next mid halved =>
        have kept := state_tcpOutput false writes mid
        rw [state_tcpSplitUnsentSeg halved] at kept
        split at done_
        · next last emitted sent =>
            cases done_
            rw [sent] at kept
            exact kept
        · next err last emitted refused sent =>
            cases done_
            rw [sent] at kept
            exact kept

theorem state_retransmit (writes : List Bool) (pcb : TcpPcb) :
    (retransmit writes pcb).state = pcb.state := by
  simp only [retransmit]
  split
  · rfl
  · rw [state_tcpOutput]
    rfl

theorem state_tcpSlowtmr
    {due : Bool} {writes : List Bool} {pcb next : TcpPcb}
    (done_ : tcpSlowtmr due writes pcb = .ok next) :
    next.state = pcb.state := by
  simp only [tcpSlowtmr] at done_
  split at done_
  · split at done_
    · cases done_
    · split at done_
      · split at done_
        · cases done_
        · next mid probed =>
            cases done_
            rw [state_tcpOutput]
            exact state_persistTimeout probed
      · cases done_
        exact state_tcpOutput false writes pcb
  · split at done_
    · cases done_
      rw [state_tcpOutput]
      exact state_retransmit writes pcb
    · cases done_
      exact state_tcpOutput false writes pcb

theorem state_tcpFasttmr (writes : List Bool) (pcb : TcpPcb) :
    (tcpFasttmr writes pcb).state = pcb.state := by
  simp only [tcpFasttmr]
  split
  · exact state_tcpOutput false writes _
  · rfl

/-! ## Who resets -/

/-- No segment on a queue is a reset. -/
theorem reset_notMem_tcpOutput
    (inputPcb : Bool) (writes : List Bool) (pcb : TcpPcb) :
    Emission.reset ∉ (tcpOutput inputPcb writes pcb).2.2 := by
  have loop :
      ∀ segs writes pcb,
        Emission.reset ∉ (outputLoop segs writes pcb).2.2 := by
    intro segs
    induction segs with
    | nil => simp [outputLoop]
    | cons seg rest induction =>
        intro writes pcb
        simp only [outputLoop]
        split
        · split
          · simpa using induction _ _
          · simp
        · simp
  have ack : ∀ pcb, Emission.reset ∉ (tcpSendEmptyAck writes pcb).2.2 := by
    intro pcb
    simp only [tcpSendEmptyAck]
    split
    · simp
    · simp
  simp only [tcpOutput]
  split
  · simp
  · split
    · simp
    · split
      · split
        · exact ack _
        · simp
      · split
        · exact loop _ _ _
        · split
          · exact ack _
          · simp

theorem reset_notMem_tcpRecved
    (inputPcb : Bool) (writes : List Bool) (pcb : TcpPcb) (len : Nat) :
    Emission.reset ∉ (tcpRecved inputPcb writes pcb len).2 := by
  simp only [tcpRecved]
  split
  · exact reset_notMem_tcpOutput inputPcb writes _
  · simp

theorem reset_notMem_tcpShutdown
    (inputPcb : Bool) (writes : List Bool) (pcb : TcpPcb) :
    Emission.reset ∉ (tcpShutdown inputPcb writes pcb).2 := by
  have fin :
      Emission.reset ∉ (tcpCloseShutdownFin inputPcb writes pcb).2 := by
    simp only [tcpCloseShutdownFin]
    split
    · exact reset_notMem_tcpOutput inputPcb writes _
    · exact reset_notMem_tcpOutput inputPcb writes _
    · exact reset_notMem_tcpOutput inputPcb writes _
    · simp
  simp only [tcpShutdown]
  split
  · exact fin
  · exact fin
  · exact fin
  · simp

/-- Only a reset of the application resets the connection. -/
theorem reset_tcpProcess
    {ticks : Nat} {seg : Segment} {pcb : TcpPcb}
    (unreset : seg.rst = false) :
    (tcpProcess ticks seg pcb).reset = false := by
  have synchronized :
      ∀ pcb, (processSynchronized seg pcb).reset = false := by
    intro pcb
    simp only [processSynchronized]
    repeat' split
    all_goals rfl
  simp only [tcpProcess, unreset, Bool.false_eq_true, if_false]
  split
  · rfl
  · split
    · simp only [processSynRcvd]
      repeat' split
      all_goals rfl
    · exact synchronized _

/-! ## The end of LAST-ACK -/

/-- The segment acknowledges the FIN of a connection in LAST-ACK. -/
def acksLastFin (ticks : Nat) (seg : Segment) (pcb : TcpPcb) : Bool :=
  decide (pcb.state = .lastAck) &&
    acksAll seg (tcpReceive seg (refreshPcb ticks seg pcb))

theorem closed_tcpProcess
    {ticks : Nat} {seg : Segment} {pcb : TcpPcb}
    (closed : (tcpProcess ticks seg pcb).closed = true) :
    acksLastFin ticks seg pcb = true := by
  have refreshed := (sameCore_refreshPcb ticks seg pcb).state
  simp only [tcpProcess] at closed
  split at closed
  · split at closed
    · cases closed
    · split at closed
      · cases closed
      · cases closed
  · split at closed
    · cases closed
    · split at closed
      · simp only [processSynRcvd] at closed
        repeat' split at closed
        all_goals cases closed
      · simp only [processSynchronized] at closed
        split at closed
        case h_6 now =>
          rw [acksLastFin, refreshed.symm.trans now]
          exact closed
        all_goals repeat' split at closed
        all_goals cases closed

/-! ## The largest window -/

/-- The segment size is the same, and the largest window did not shrink. -/
structure Widens (before after : TcpPcb) : Prop where
  mss : after.mss = before.mss
  sndWndMax : before.sndWndMax ≤ after.sndWndMax

theorem Widens.refl (pcb : TcpPcb) : Widens pcb pcb :=
  ⟨rfl, Nat.le_refl _⟩

theorem Widens.trans
    {first second third : TcpPcb}
    (before : Widens first second) (after : Widens second third) :
    Widens first third :=
  ⟨after.mss.trans before.mss,
    Nat.le_trans before.sndWndMax after.sndWndMax⟩

theorem widens_tcpRexmit (pcb : TcpPcb) : Widens pcb (tcpRexmit pcb) := by
  unfold tcpRexmit
  split
  · exact .refl pcb
  · exact ⟨rfl, Nat.le_refl _⟩

theorem widens_updateWindow (seg : Segment) (pcb : TcpPcb) :
    Widens pcb (updateWindow seg pcb) := by
  unfold updateWindow
  split
  · exact .refl pcb
  · exact ⟨rfl, Nat.le_max_left _ _⟩

theorem widens_receiveAck (seg : Segment) (pcb : TcpPcb) :
    Widens pcb (receiveAck seg pcb).1 := by
  have updated := widens_updateWindow seg pcb
  simp only [receiveAck]
  split
  · exact .refl pcb
  · split
    · split
      · have again :=
          updated.trans (widens_tcpRexmit (updateWindow seg pcb))
        exact ⟨again.mss, again.sndWndMax⟩
      · exact ⟨updated.mss, updated.sndWndMax⟩
    · split
      · exact ⟨updated.mss, updated.sndWndMax⟩
      · exact ⟨updated.mss, updated.sndWndMax⟩

theorem widens_receiveData (seg : Segment) (pcb : TcpPcb) :
    Widens pcb (receiveData seg pcb) := by
  unfold receiveData tcpAck
  rcases tcpUpdateRcvAnnWnd_fst
      { pcb with
        rcvNxt := pcb.rcvNxt + seg.delivered
        rcvWnd := pcb.rcvWnd - seg.delivered } with
    ⟨_, announced⟩
  rw [announced]
  split
  · exact ⟨rfl, Nat.le_refl _⟩
  · exact ⟨rfl, Nat.le_refl _⟩

theorem widens_tcpReceive (seg : Segment) (pcb : TcpPcb) :
    Widens pcb (tcpReceive seg pcb).pcb := by
  have acknowledged := widens_receiveAck seg pcb
  simp only [tcpReceive]
  split
  · exact acknowledged.trans (widens_receiveData seg _)
  · exact acknowledged

theorem widens_processSynchronized (seg : Segment) (pcb : TcpPcb) :
    Widens pcb (processSynchronized seg pcb).pcb := by
  have received := widens_tcpReceive seg pcb
  simp only [processSynchronized]
  repeat' split
  all_goals first
    | exact .refl pcb
    | exact ⟨received.mss, received.sndWndMax⟩

theorem widens_processSynRcvd (seg : Segment) (pcb : TcpPcb) :
    Widens pcb (processSynRcvd seg pcb).pcb := by
  have received :=
    widens_tcpReceive seg { pcb with state := .established }
  simp only [processSynRcvd]
  split
  · split
    · simp only [Processed.received]
      split
      · exact ⟨received.mss, received.sndWndMax⟩
      · exact ⟨received.mss, received.sndWndMax⟩
    · exact .refl pcb
  · split
    · exact widens_tcpRexmit pcb
    · exact .refl pcb

/-- Only the MSS option of a segment changes the segment size. -/
theorem widens_tcpProcess (ticks : Nat) (seg : Segment) (pcb : TcpPcb) :
    Widens pcb (tcpProcess ticks seg pcb).pcb ∨
      Widens (refreshPcb ticks seg pcb)
        (tcpProcess ticks seg pcb).pcb := by
  simp only [tcpProcess]
  split
  · split
    · exact .inl ⟨rfl, Nat.le_refl _⟩
    · split
      · exact .inl ⟨rfl, Nat.le_refl _⟩
      · exact .inl (.refl pcb)
  · split
    · exact .inl ⟨rfl, Nat.le_refl _⟩
    · split
      · exact .inr (widens_processSynRcvd seg _)
      · exact .inr (widens_processSynchronized seg _)

/-! ## Room for one chunk -/

/--
The application has announced a window of which half is at least a 16382nd
of the segment size.
-/
def Spacious (mss sndWndMax : Nat) : Prop :=
  mss ≤ 16382 * max 1 (sndWndMax / 2)

instance (mss sndWndMax : Nat) : Decidable (Spacious mss sndWndMax) :=
  inferInstanceAs (Decidable (_ ≤ _))

theorem Spacious.grow
    {mss before after : Nat} (spacious : Spacious mss before)
    (grows : before ≤ after) :
    Spacious mss after := by
  have half : before / 2 ≤ after / 2 := Nat.div_le_div_right grows
  have more : max 1 (before / 2) ≤ max 1 (after / 2) := by
    omega
  exact Nat.le_trans spacious (Nat.mul_le_mul_left 16382 more)

theorem Widens.spacious
    {before after : TcpPcb} (widens : Widens before after)
    (spacious : Spacious before.mss before.sndWndMax) :
    Spacious after.mss after.sndWndMax := by
  rw [widens.mss]
  exact spacious.grow widens.sndWndMax

/-- A chunk of one segment size makes at most 16382 segments. -/
theorem mss_le_mssLocal
    {pcb : TcpPcb} (spacious : Spacious pcb.mss pcb.sndWndMax) :
    pcb.mss ≤ pcb.mssLocal * 16382 := by
  have bound : pcb.mss ≤ 35940 := pcb.mss_le
  simp only [Spacious] at spacious
  simp only [TcpPcb.mssLocal]
  split
  · omega
  · omega

theorem mssLocal_pos {pcb : TcpPcb} (positive : 0 < pcb.mss) :
    0 < pcb.mssLocal := by
  simp only [TcpPcb.mssLocal]
  split
  · exact positive
  · omega

/-- The queue has room for `count` more segments. -/
theorem createSegments_fits
    {maxLen fuel count : Nat} {data : List UInt8}
    (queuelen seqno : Nat) (positive : 0 < maxLen)
    (enough : data.length ≤ fuel)
    (covered : data.length ≤ maxLen * count)
    (room : queuelen + 2 * count ≤ tcpSndqueuelenOverflow) :
    ∃ segs total,
      createSegments maxLen fuel queuelen seqno data =
        some (segs, total) := by
  induction fuel generalizing queuelen seqno count data with
  | zero =>
      rw [List.length_eq_zero_iff.mp (Nat.le_zero.mp enough)]
      exact ⟨[], queuelen, rfl⟩
  | succ fuel induction =>
      cases data with
      | nil => exact ⟨[], queuelen, rfl⟩
      | cons byte rest =>
          cases count with
          | zero => cases covered
          | succ count =>
              have fits :
                  ¬ min tcpSndQueuelen tcpSndqueuelenOverflow <
                    queuelen + 2 := by
                simp only [tcpSndQueuelen, tcpSndqueuelenOverflow]
                  at room ⊢
                omega
              rw [Nat.mul_succ] at covered
              have dropped :
                  ((byte :: rest).drop maxLen).length =
                    (byte :: rest).length - maxLen :=
                List.length_drop
              have shorter : 0 < (byte :: rest).length :=
                Nat.succ_pos _
              rcases @induction count ((byte :: rest).drop maxLen)
                  (queuelen + 2)
                  (seqno + ((byte :: rest).take maxLen).length)
                  (by omega) (by omega) (by omega) with
                ⟨segs, total, created⟩
              refine
                ⟨romSegment seqno ((byte :: rest).take maxLen) :: segs,
                  total, ?_⟩
              simp only [createSegments, if_neg fits, created]

/-- The checks of `tcp_write` pass, or one of its assertions fails. -/
theorem tcpWriteChecks_passes
    {pcb : TcpPcb} {len : Nat}
    (sends : maySend pcb.state = true)
    (fits : len ≤ pcb.sndBuf)
    (short : pcb.sndQueuelen ≤ tcpSndQueuelen / 2)
    {err : ErrT} (checked : tcpWriteChecks pcb len = .ok err) :
    err = .ok := by
  have state :
      ¬ (pcb.state ≠ .established ∧ pcb.state ≠ .closeWait ∧
        pcb.state ≠ .synSent ∧ pcb.state ≠ .synRcvd) := by
    rintro ⟨established, closeWait, _, synRcvd⟩
    cases now : pcb.state with
    | established => exact established now
    | closeWait => exact closeWait now
    | synRcvd => exact synRcvd now
    | _ =>
        rw [now] at sends
        cases sends
  have queue :
      ¬ min tcpSndQueuelen (tcpSndqueuelenOverflow + 1) ≤
        pcb.sndQueuelen := by
    simp only [tcpSndQueuelen, tcpSndqueuelenOverflow] at short ⊢
    omega
  simp only [tcpWriteChecks, if_neg state, if_neg (Nat.not_lt.mpr fits),
    if_neg queue] at checked
  repeat' split at checked
  all_goals cases checked
  all_goals rfl

/-- While the sending side is open, `tcp_write` takes a chunk. -/
theorem tcpWrite_takes
    {pcb next : TcpPcb} {data : List UInt8} {err : ErrT}
    (sends : maySend pcb.state = true)
    (spacious : Spacious pcb.mss pcb.sndWndMax)
    (filled : data ≠ []) (small : data.length ≤ pcb.mss)
    (fits : data.length ≤ pcb.sndBuf)
    (short : pcb.sndQueuelen ≤ tcpSndQueuelen / 2)
    (written : tcpWrite pcb data = .ok (err, next)) :
    err = .ok := by
  have some_byte : 0 < data.length := List.length_pos_iff.mpr filled
  have positive : 0 < pcb.mssLocal :=
    mssLocal_pos (Nat.lt_of_lt_of_le some_byte small)
  have covered : data.length ≤ pcb.mssLocal * 16382 :=
    Nat.le_trans small (mss_le_mssLocal spacious)
  have room :
      pcb.sndQueuelen + 1 + 2 * 16382 ≤ tcpSndqueuelenOverflow := by
    simp only [tcpSndQueuelen, tcpSndqueuelenOverflow] at short ⊢
    omega
  unfold tcpWrite at written
  split at written
  · cases written
  · split at written
    · rcases createSegments_fits pcb.sndQueuelen pcb.sndLbb positive
          (Nat.le_refl _) covered (Nat.le_trans (by omega) room) with
        ⟨segs, total, created⟩
      simp only [Except.ok.injEq, writeFresh, created] at written
      cases written
      rfl
    · next last _ =>
        split at written
        · cases written
        · simp only [Except.ok.injEq, writeBehind] at written
          have longest :
              (if min (appendSpace pcb last) data.length = 0 then
                pcb.sndQueuelen
              else pcb.sndQueuelen + 1) + 2 * 16382 ≤
                tcpSndqueuelenOverflow := by
            split
            · omega
            · exact room
          have rest :
              (data.drop
                (min (appendSpace pcb last) data.length)).length ≤
                data.length := by
            simp
          rcases createSegments_fits _
              (pcb.sndLbb + min (appendSpace pcb last) data.length)
              positive rest (Nat.le_trans rest covered) longest with
            ⟨segs, total, created⟩
          rw [created] at written
          cases written
          rfl
  · next refused checked =>
      cases written
      exact tcpWriteChecks_passes sends fits short checked

/-- `tcp_write` keeps the accounts of a control block. -/
theorem accounted_tcpWrite
    {pcb next : TcpPcb} {data : List UInt8}
    (holds : Accounted pcb) (sends : maySend pcb.state = true)
    (fits : data.length ≤ pcb.sndBuf)
    (written : tcpWrite pcb data = .ok (.ok, next)) :
    Accounted next := by
  have active : pcb.state ≠ .timeWait := by
    intro waits
    rw [waits] at sends
    cases sends
  exact .inl ((holds.queued active).write (writes_of_tcpWrite written) fits)

end Nsproxy.Lwip.Sending
