import Nsproxy.Lwip.ReassemblySteps

/-!
# What is queued out of sequence

A segment behind a gap finds its place on the queue, which stays a list of
cuts in order and without overlap: the segment in front is cut where the new
one begins, and what the new one covers is removed.  No assertion can fail
here, whether or not the peer keeps to the window.
-/

namespace Nsproxy.Lwip.Reassembly

open Nsproxy.Lib.SerialNumber

variable {stream : List UInt8} {start : Seqno} {high low pos : Nat}
  {seg inseg : Seg} {queue rest : List Seg}

/-! ## In front of the rest -/

/-- A segment put in front of queued ones which begin behind it. -/
theorem insertBefore_spec
    (cut : Cut stream start pos seg) (nonempty : 0 < seg.len)
    (bound : pos + seg.tcplen ≤ high)
    (closed : seg.fin = true → queue = [])
    (queued : Queued stream start high (pos + 1) queue)
    (near : high ≤ pos + horizon) :
    Queued stream start high pos (insertBefore seg queue) := by
  have least := Cut.len_le_tcplen seg
  induction queue generalizing seg with
  | nil =>
      exact
        ⟨pos,
          { low := Nat.le_refl _
            cut := cut
            nonempty := by omega
            high := bound
            last := fun _ => rfl },
          trivial⟩
  | cons next rest induction =>
      rcases queued with ⟨second, standing, later⟩
      have open_ : seg.fin = false := by
        cases fin : seg.fin with
        | false => rfl
        | true => exact nomatch closed fin
      have plain := Cut.tcplen_of_not_fin open_
      have short := Cut.len_lt seg
      have behind := standing.low
      have limit := standing.high
      have nextLen := Cut.len_le_tcplen next
      have covers := covers_iff seg.len cut.seqno standing.cut.seqno
        (show second + next.len ≤ pos + horizon by omega) (by omega)
        (by omega)
      have overlaps := overlaps_iff seg.len cut.seqno standing.cut.seqno
        (show second ≤ pos + horizon by omega) (by omega) (by omega)
      unfold insertBefore
      by_cases covered : second + next.len ≤ pos + seg.len
      · rw [if_pos (covers.trans (decide_eq_true covered))]
        have onward : Queued stream start high (pos + 1) rest :=
          later.lower (by omega)
        cases fin : next.fin with
        | true =>
            have last := standing.last fin
            have taken := cut.takesFin standing.cut fin covered
            have more := Cut.tcplen_of_fin fin
            have set : seg.setFin.tcplen = seg.len + 1 :=
              Cut.tcplen_of_fin rfl
            exact
              induction taken.1 nonempty (by simp only [if_true]; omega)
                (fun _ => last) onward (Cut.len_le_tcplen _)
        | false =>
            exact
              induction cut nonempty bound (by simp [open_]) onward least
      · rw [if_neg (by rw [covers]; simpa using covered)]
        by_cases into : second < pos + seg.len
        · have distance :
              u16 (next.seqno - seg.seqno) = second - pos := by
            rw [standing.cut.seqno, cut.seqno]
            exact u16_number (by omega) (by omega)
          have trimmed := cut.trim open_
            (show second - pos ≤ seg.len by omega)
          rw [if_pos (overlaps.trans (decide_eq_true into)), distance]
          refine ⟨pos, ?_, second, { standing with low := ?_ }, later⟩
          · exact
              { low := Nat.le_refl _
                cut := trimmed.1
                nonempty := by omega
                high := by omega
                last := fun ended =>
                  absurd ended (by simp [Seg.trim, open_]) }
          · omega
        · rw [if_neg (by rw [overlaps]; simpa using into)]
          refine ⟨pos, ?_, second, { standing with low := ?_ }, later⟩
          · exact
              { low := Nat.le_refl _
                cut := cut
                nonempty := by omega
                high := bound
                last := fun ended => absurd ended (by simp [open_]) }
          · omega

/-- A segment which may carry a FIN. -/
theorem tcpOosInsertSegment_spec
    (cut : Cut stream start pos seg) (nonempty : 0 < seg.tcplen)
    (bound : pos + seg.tcplen ≤ high)
    (queued : Queued stream start high (pos + 1) queue)
    (near : high ≤ pos + horizon) :
    Queued stream start high pos (tcpOosInsertSegment seg queue) := by
  unfold tcpOosInsertSegment
  cases fin : seg.fin with
  | true =>
      rw [if_pos rfl]
      exact
        ⟨pos,
          { low := Nat.le_refl _
            cut := cut
            nonempty := nonempty
            high := bound
            last := fun _ => rfl },
          trivial⟩
  | false =>
      have plain := Cut.tcplen_of_not_fin fin
      rw [if_neg (by simp)]
      exact
        insertBefore_spec cut (by omega) bound (by simp [fin]) queued near

/-- A longer segment takes the place of one which begins where it does. -/
theorem tcpOosInsertSegment_replaces
    {next : Seg}
    (cut : Cut stream start pos seg) (bound : pos + seg.tcplen ≤ high)
    (standing : Standing stream start high low pos next rest)
    (later : Queued stream start high (pos + next.len) rest)
    (longer : next.len < seg.len) (near : high ≤ pos + horizon) :
    Queued stream start high pos
      (tcpOosInsertSegment seg (next :: rest)) := by
  cases fin : seg.fin with
  | true =>
      have both : tcpOosInsertSegment seg (next :: rest) =
          tcpOosInsertSegment seg [] := by
        simp [tcpOosInsertSegment, fin]
      have least := Cut.len_le_tcplen seg
      rw [both]
      exact
        tcpOosInsertSegment_spec cut (by omega) bound trivial near
  | false =>
      have plain := Cut.tcplen_of_not_fin fin
      have short := Cut.len_lt seg
      have covers := covers_iff seg.len cut.seqno standing.cut.seqno
        (show pos + next.len ≤ pos + horizon by omega) (by omega)
        (Nat.le_refl _)
      have onward : Queued stream start high (pos + 1) rest := by
        cases rest with
        | nil => trivial
        | cons _ _ =>
            have nonempty := standing.len_pos (by simp)
            exact later.lower (by omega)
      unfold tcpOosInsertSegment insertBefore
      rw [if_neg (by simp [fin]),
        if_pos (covers.trans (decide_eq_true (by omega)))]
      cases ended : next.fin with
      | true =>
          have last := standing.last ended
          have limit := standing.high
          have more := Cut.tcplen_of_fin ended
          have taken := cut.takesFin standing.cut ended (by omega)
          have set : seg.setFin.tcplen = seg.len + 1 :=
            Cut.tcplen_of_fin rfl
          rw [if_pos rfl]
          exact
            insertBefore_spec taken.1 (Nat.lt_of_le_of_lt (Nat.zero_le _)
              longer) (by omega) (fun _ => last) onward near
      | false =>
          rw [if_neg (by simp)]
          exact
            insertBefore_spec cut (by omega) bound (by simp [fin]) onward
              near

/-! ## The segment in front -/

/-- A queued segment is cut where a later one begins. -/
theorem trimBack_spec
    {before : Nat}
    (standing : Standing stream start high low before seg rest)
    (more : rest ≠ [])
    {seqno : Seqno} (numbered : seqno = number start pos)
    (behind : before < pos) (near : pos ≤ before + horizon) :
    (trimBack seg seqno).fin = false ∧
      before + (trimBack seg seqno).len ≤ pos ∧
        ∀ after,
          Standing stream start high low before (trimBack seg seqno)
            after := by
  have open_ : seg.fin = false := by
    cases fin : seg.fin with
    | false => rfl
    | true => exact absurd (standing.last fin) more
  have plain := Cut.tcplen_of_not_fin open_
  have short := Cut.len_lt seg
  have limit := standing.high
  have overlaps := overlaps_iff seg.len standing.cut.seqno numbered near
    (by omega) (by omega)
  unfold trimBack
  by_cases into : pos < before + seg.len
  · have distance : u16 (seqno - seg.seqno) = pos - before := by
      rw [numbered, standing.cut.seqno]
      exact u16_number (by omega) (by omega)
    have trimmed := standing.cut.trim open_
      (show pos - before ≤ seg.len by omega)
    rw [if_pos (overlaps.trans (decide_eq_true into)), distance]
    refine ⟨open_, by omega, fun after => ?_⟩
    exact
      { low := standing.low
        cut := trimmed.1
        nonempty := by omega
        high := by omega
        last := fun ended => absurd ended (by simp [Seg.trim, open_]) }
  · rw [if_neg (by rw [overlaps]; simpa using into)]
    refine ⟨open_, by omega, fun after => ?_⟩
    exact
      { standing with
        last := fun ended => absurd ended (by simp [open_]) }

/-! ## The walk through the queue -/

/-- The part of the queue from the segment which was last passed. -/
def Passed
    (stream : List UInt8) (start : Seqno) (high low pos : Nat) :
    Option Seg → List Seg → Prop
  | none, queue => Queued stream start high low queue
  | some seg, queue =>
      queue ≠ [] ∧
        ∃ before,
          Standing stream start high low before seg queue ∧
            before < pos ∧ Queued stream start high (before + seg.len) queue

/-- What is behind the passed segment may be replaced by later segments. -/
theorem Passed.split
    {prev : Option Seg} {next : Seg}
    (passed : Passed stream start high low pos prev (next :: rest)) :
    ∃ second,
      Standing stream start high low second next rest ∧
        Queued stream start high (second + next.len) rest ∧
        ∀ later,
          Queued stream start high second later →
            Queued stream start high low (prev.toList ++ later) := by
  cases prev with
  | none =>
      rcases passed with ⟨second, standing, queued⟩
      exact
        ⟨second, standing, queued,
          fun later behind => behind.lower standing.low⟩
  | some seg =>
      rcases passed with
        ⟨more, before, front, _, second, standing, queued⟩
      have behind := front.low
      refine
        ⟨second, standing.lower (by omega), queued,
          fun later follows => ⟨before, ?_, follows.lower standing.low⟩⟩
      exact
        { front with
          last := fun ended => absurd (front.last ended) more }

/-- The passed segment is cut where the later segments begin. -/
theorem Passed.trimmed
    {prev : Option Seg}
    (passed : Passed stream start high low pos prev queue)
    {seqno : Seqno} (numbered : seqno = number start pos)
    (behind : low ≤ pos) (near : pos ≤ low + horizon)
    {later : List Seg} (queued : Queued stream start high pos later) :
    Queued stream start high low
      ((prev.map (trimBack · seqno)).toList ++ later) := by
  cases prev with
  | none => exact queued.lower behind
  | some seg =>
      rcases passed with ⟨more, before, front, ahead, _⟩
      have least := front.low
      have cut := trimBack_spec front more numbered ahead (by omega)
      exact ⟨before, cut.2.2 _, queued.lower cut.2.1⟩

/-- The place is found where the next segment begins later. -/
theorem Passed.fitsBefore_eq
    {prev : Option Seg} {next : Seg} {second : Nat}
    (passed : Passed stream start high low pos prev (next :: rest))
    (numbered : inseg.seqno = number start pos)
    (other : next.seqno = number start second)
    (behind : low ≤ pos) (least : low ≤ second)
    (near : pos ≤ low + horizon) (close : second ≤ low + horizon) :
    fitsBefore inseg prev next = decide (pos < second) := by
  unfold horizon at near close
  cases prev with
  | none =>
      rw [fitsBefore, numbered, other, number, number,
        tcpSeqLt_serial (by omega) (by omega), decide_eq_decide]
      omega
  | some seg =>
      rcases passed with ⟨_, before, front, ahead, _⟩
      have first := front.low
      rw [fitsBefore, numbered, other, front.cut.seqno, number_add,
        number_sub_one, tcpSeqBetween, number, number,
        tcpSeqGeq_serial (by omega) (by omega),
        tcpSeqLeq_serial (by omega) (by omega), ← Bool.decide_and,
        decide_eq_decide]
      omega

/-- The last segment is cut where the window ends. -/
theorem clipToWindow_spec
    {pcb : Receiver} {rcvd : Nat}
    (next : pcb.rcvNxt = number start rcvd)
    (small : pcb.rcvWnd ≤ 1048576)
    (cut : Cut stream start pos inseg) (nonempty : 0 < inseg.tcplen)
    (behind : rcvd ≤ pos) (inside : pos < rcvd + pcb.rcvWnd) :
    ∃ last,
      clipToWindow pcb inseg = .ok last ∧ Cut stream start pos last ∧
        0 < last.tcplen ∧ last.tcplen ≤ inseg.tcplen := by
  have short := Cut.tcplen_le inseg
  have most : inseg.tcplen ≤ inseg.len + 1 := by
    unfold Seg.tcplen
    split <;> omega
  have beyond := overlaps_iff inseg.tcplen cut.seqno
    (show pcb.rcvNxt + u32 pcb.rcvWnd = number start (rcvd + pcb.rcvWnd) by
      rw [next, number_add])
    (show rcvd + pcb.rcvWnd ≤ pos + horizon by unfold horizon; omega)
    short (by omega)
  unfold clipToWindow
  rw [BitVec.add_comm (u32 inseg.tcplen)]
  by_cases excess : rcvd + pcb.rcvWnd < pos + inseg.tcplen
  · have distance :
        u16 (pcb.rcvNxt + u32 pcb.rcvWnd - inseg.seqno) =
          rcvd + pcb.rcvWnd - pos := by
      rw [next, number_add, cut.seqno]
      exact u16_number (by omega) (by omega)
    have same : inseg.clearFin.len = inseg.len := rfl
    have trimmed := cut.clearFin.trim rfl
      (show rcvd + pcb.rcvWnd - pos ≤ inseg.clearFin.len by omega)
    rw [if_pos (beyond.trans (decide_eq_true excess)), distance]
    simp only [trimmed.2.2]
    rw [if_pos (by
      rw [cut.seqno, number_add, next, number_add]
      congr 1
      omega)]
    exact ⟨_, rfl, trimmed.1, by omega, by omega⟩
  · rw [if_neg (by rw [beyond]; simpa using excess)]
    exact ⟨inseg, rfl, cut, nonempty, Nat.le_refl _⟩

/-- The walk puts the segment in its place. -/
theorem walk_spec
    {pcb : Receiver} {rcvd : Nat} {prev : Option Seg}
    (next : pcb.rcvNxt = number start rcvd)
    (small : pcb.rcvWnd ≤ 1048576)
    (cut : Cut stream start pos inseg) (nonempty : 0 < inseg.tcplen)
    (behind : rcvd ≤ pos) (inside : pos < rcvd + pcb.rcvWnd)
    (bound : pos + inseg.tcplen ≤ high)
    (passed : Passed stream start high low pos prev queue)
    (least : low ≤ pos) (near : high ≤ low + horizon) :
    ∃ result,
      walk pcb inseg prev queue = .ok result ∧
        Queued stream start high low result := by
  induction queue generalizing prev low with
  | nil =>
      cases prev with
      | none => exact ⟨_, rfl, trivial⟩
      | some seg => exact absurd rfl passed.1
  | cons following rest induction =>
      rcases passed.split with ⟨second, standing, later, stays⟩
      have ahead := standing.low
      have limit := standing.high
      have same :
          inseg.seqno = following.seqno ↔ pos = second := by
        unfold horizon at near
        rw [cut.seqno, standing.cut.seqno]
        exact number_inj (by omega) (by omega)
      have fits := passed.fitsBefore_eq cut.seqno standing.cut.seqno
        least ahead (by omega) (by omega)
      have whole : Queued stream start high second (following :: rest) :=
        ⟨second, { standing with low := Nat.le_refl _ }, later⟩
      unfold walk
      by_cases equal : pos = second
      · subst equal
        rw [if_pos (same.mpr rfl)]
        split
        · next longer =>
            exact
              ⟨_, rfl,
                stays _
                  (tcpOosInsertSegment_replaces cut bound standing later
                    longer (by omega))⟩
        · exact ⟨_, rfl, stays _ whole⟩
      · rw [if_neg (fun equation => equal (same.mp equation)), fits]
        by_cases between : pos < second
        · rw [if_pos (decide_eq_true between)]
          refine ⟨_, rfl, passed.trimmed cut.seqno least (by omega) ?_⟩
          exact
            tcpOosInsertSegment_spec cut nonempty bound
              ⟨second, { standing with low := between }, later⟩ (by omega)
        · have after : second < pos := by omega
          have greater : tcpSeqGt inseg.seqno following.seqno = true := by
            unfold horizon at near
            rw [cut.seqno, standing.cut.seqno, number, number,
              tcpSeqGt_serial (by omega) (by omega)]
            exact decide_eq_true (by omega)
          rw [if_neg (by simpa using between), greater, Bool.and_true]
          cases rest with
          | nil =>
              rw [if_pos List.isEmpty_nil]
              cases ended : following.fin with
              | true =>
                  rw [if_pos rfl]
                  exact ⟨_, rfl, stays _ whole⟩
              | false =>
                  rcases clipToWindow_spec next small cut nonempty behind
                    inside with ⟨last, clipped, piece, more, most⟩
                  have front :
                      Standing stream start high low second following
                        [last] :=
                    { standing with
                      last := fun finished => by simp [ended] at finished }
                  have back := trimBack_spec front (by simp) cut.seqno
                    after (by omega)
                  simp only [Bool.false_eq_true, if_false, clipped]
                  refine ⟨_, rfl, stays _ ⟨second, ?_, pos, ?_, trivial⟩⟩
                  · exact { back.2.2 [last] with low := Nat.le_refl _ }
                  · exact
                      { low := back.2.1
                        cut := piece
                        nonempty := more
                        high := by omega
                        last := fun _ => rfl }
          | cons third more =>
              rw [if_neg (by simp)]
              rcases induction
                (show Passed stream start high second pos
                    (Option.some following) (third :: more) from
                  ⟨by simp, second,
                    { standing with low := Nat.le_refl _ }, after, later⟩)
                (by omega) (by omega) with ⟨result, walked, queued⟩
              rw [walked]
              exact ⟨_, rfl, stays _ queued⟩

/-- A segment behind a gap is queued without a fault. -/
theorem receiveOutOfSequence_spec
    {pcb : Receiver} {rcvd : Nat}
    (next : pcb.rcvNxt = number start rcvd)
    (small : pcb.rcvWnd ≤ 1048576)
    (cut : Cut stream start pos inseg) (nonempty : 0 < inseg.tcplen)
    (behind : rcvd < pos) (inside : pos < rcvd + pcb.rcvWnd)
    (bound : pos + inseg.tcplen ≤ high)
    (queued : Queued stream start high (rcvd + 1) pcb.ooseq)
    (near : high ≤ rcvd + horizon) (copied : Bool) :
    ∃ ooseq,
      receiveOutOfSequence pcb inseg copied =
          .ok ({ pcb with ooseq := ooseq }, nothing) ∧
        Queued stream start high (rcvd + 1) ooseq := by
  unfold receiveOutOfSequence
  cases copied with
  | false => exact ⟨pcb.ooseq, rfl, queued⟩
  | true =>
      rw [if_pos rfl]
      cases waiting : pcb.ooseq with
      | nil =>
          exact
            ⟨[inseg], rfl, pos,
              { low := behind
                cut := cut
                nonempty := nonempty
                high := bound
                last := fun _ => rfl },
              trivial⟩
      | cons first rest =>
          have passed :
              Passed stream start high (rcvd + 1) pos none
                (first :: rest) :=
            waiting ▸ queued
          rcases walk_spec next small cut nonempty (Nat.le_of_lt behind)
            inside bound passed behind (by omega) with
            ⟨result, walked, placed⟩
          simp only [walked]
          exact ⟨result, rfl, placed⟩

end Nsproxy.Lwip.Reassembly
