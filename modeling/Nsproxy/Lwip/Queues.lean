import Mathlib.Algebra.BigOperators.Group.List.Basic
import Mathlib.Algebra.GroupWithZero.Nat
import Mathlib.Data.List.Perm.Basic
import Mathlib.Tactic.Common
import Nsproxy.Lwip.TcpTimers

/-!
# The accounts of the send queues

The bytes on the two queues of a control block are exactly the part of
`TCP_SND_BUF` missing from `snd_buf`, and `snd_queuelen` counts their pbufs.
At most two segments carry no payload: the SYN and the FIN.  So when all
payload is acknowledged, next to nothing is left on the queues.

Emitting and retransmitting permute the queues, an acknowledgement takes
segments from their fronts, and only `tcp_write`, `tcp_send_fin` and
`tcp_split_unsent_seg` make new segments.
-/

namespace Nsproxy.Lwip.Queues

open Nsproxy.Lwip.Opts
open Nsproxy.Lwip.TcpOut
open Nsproxy.Lwip.Tcp
open Nsproxy.Lwip.TcpIn
open Nsproxy.Lwip.TcpTimers

/-- Both queues of a control block. -/
def queue (pcb : TcpPcb) : List TcpSeg := pcb.unacked ++ pcb.unsent

/-! ## Emitting permutes the queues -/

theorem perm_insertSorted (seg : TcpSeg) (segs : List TcpSeg) :
    (insertSorted seg segs).Perm (seg :: segs) := by
  induction segs with
  | nil =>
      exact .refl _
  | cons first rest induction =>
      simp only [insertSorted]
      split
      · exact (induction.cons first).trans (.swap seg first rest)
      · exact .refl _

theorem perm_enqueueUnacked (seg : TcpSeg) (unacked : List TcpSeg) :
    (enqueueUnacked seg unacked).Perm (seg :: unacked) := by
  unfold enqueueUnacked
  split
  · next absent =>
      rw [List.getLast?_eq_none_iff.mp absent]
  · split
    · exact perm_insertSorted seg unacked
    · exact List.perm_append_singleton seg unacked

/-- Every segment occupies sequence numbers. -/
def Occupied (segs : List TcpSeg) : Prop :=
  ∀ seg ∈ segs, seg.tcplen ≠ 0

theorem perm_outputLoop
    (segs : List TcpSeg) (writes : List Bool) (pcb : TcpPcb)
    (unsent : pcb.unsent = segs) (occupied : Occupied segs) :
    (queue (outputLoop segs writes pcb).2.1).Perm (queue pcb) := by
  induction segs generalizing writes pcb with
  | nil =>
      exact .refl _
  | cons seg rest induction =>
      simp only [outputLoop]
      split
      · split
        · have restOccupied : Occupied rest := fun other member =>
            occupied other (List.mem_cons_of_mem seg member)
          have later :=
            induction writes.tail (segmentSent pcb seg rest) rfl
              restOccupied
          refine later.trans ?_
          have filled : seg.tcplen ≠ 0 :=
            occupied seg List.mem_cons_self
          have sent :
              queue (segmentSent pcb seg rest) =
                enqueueUnacked seg pcb.unacked ++ rest := by
            simp [queue, segmentSent, filled]
          rw [sent, queue, unsent]
          have moved := (perm_enqueueUnacked seg pcb.unacked).append_right
            rest
          exact moved.trans List.perm_middle.symm
        · exact .refl _
      · exact .refl _

theorem queue_startPersist (pcb : TcpPcb) :
    queue (startPersist pcb) = queue pcb := by
  unfold startPersist
  split <;> rfl

theorem queue_tcpSendEmptyAck (writes : List Bool) (pcb : TcpPcb) :
    queue (tcpSendEmptyAck writes pcb).2.1 = queue pcb := by
  unfold tcpSendEmptyAck
  split <;> rfl

theorem perm_tcpOutput
    (inputPcb : Bool) (writes : List Bool) (pcb : TcpPcb)
    (occupied : Occupied pcb.unsent) :
    (queue (tcpOutput inputPcb writes pcb).2.1).Perm (queue pcb) := by
  simp only [tcpOutput]
  split
  · exact .refl _
  · split
    · exact .refl _
    · split
      · split
        · rw [queue_tcpSendEmptyAck]
        · exact .refl _
      · next seg rest unsent =>
          split
          · have same :
                queue { pcb with persistBackoff := 0 } = queue pcb :=
              rfl
            rw [← same]
            exact perm_outputLoop pcb.unsent writes _ rfl occupied
          · split
            · rw [queue_tcpSendEmptyAck, queue_startPersist]
            · rw [queue_startPersist]

theorem perm_tcpRexmit (pcb : TcpPcb) :
    (queue (tcpRexmit pcb)).Perm (queue pcb) := by
  unfold tcpRexmit
  split
  · exact .refl _
  · next seg rest unacked =>
      simp only [queue, unacked, List.cons_append]
      have moved :=
        (perm_insertSorted seg pcb.unsent).append_left rest
      exact moved.trans List.perm_middle

/-! ## Measures of a queue -/

/-- The payload bytes of a queue. -/
def lens (segs : List TcpSeg) : Nat := (segs.map TcpSeg.len).sum

/-- The pbufs of a queue. -/
def clens (segs : List TcpSeg) : Nat := (segs.map TcpSeg.pbufClen).sum

/-- The segments without payload. -/
def blanks (segs : List TcpSeg) : Nat :=
  segs.countP fun seg => decide (seg.len = 0)

@[simp]
theorem lens_cons (seg : TcpSeg) (segs : List TcpSeg) :
    lens (seg :: segs) = seg.len + lens segs := by
  simp [lens]

@[simp]
theorem clens_cons (seg : TcpSeg) (segs : List TcpSeg) :
    clens (seg :: segs) = seg.pbufClen + clens segs := by
  simp [clens]

@[simp]
theorem blanks_cons (seg : TcpSeg) (segs : List TcpSeg) :
    blanks (seg :: segs) =
      blanks segs + if seg.len = 0 then 1 else 0 := by
  simp [blanks, List.countP_cons]

@[simp]
theorem lens_nil : lens [] = 0 := rfl

@[simp]
theorem clens_nil : clens [] = 0 := rfl

@[simp]
theorem blanks_nil : blanks [] = 0 := rfl

@[simp]
theorem lens_append (front back : List TcpSeg) :
    lens (front ++ back) = lens front + lens back := by
  simp [lens]

@[simp]
theorem clens_append (front back : List TcpSeg) :
    clens (front ++ back) = clens front + clens back := by
  simp [clens]

@[simp]
theorem blanks_append (front back : List TcpSeg) :
    blanks (front ++ back) = blanks front + blanks back := by
  simp [blanks]

/-- A segment without payload is a bare SYN or FIN. -/
def Proper (seg : TcpSeg) : Prop :=
  seg.len = 0 → (seg.syn || seg.fin) = true ∧ seg.pbufClen = 1

theorem Proper.tcplen {seg : TcpSeg} (proper : Proper seg) :
    seg.tcplen ≠ 0 := by
  unfold TcpSeg.tcplen
  by_cases blank : seg.len = 0
  · simp [(proper blank).1]
  · omega

theorem occupied_of_proper
    {segs : List TcpSeg} (proper : ∀ seg ∈ segs, Proper seg) :
    Occupied segs :=
  fun seg member => (proper seg member).tcplen

/-- Without payload a queue has only its bare segments. -/
theorem clens_of_lens_zero
    {segs : List TcpSeg} (proper : ∀ seg ∈ segs, Proper seg)
    (empty : lens segs = 0) :
    clens segs = blanks segs := by
  induction segs with
  | nil =>
      rfl
  | cons seg rest induction =>
      rw [lens_cons] at empty
      have blank : seg.len = 0 := by omega
      have single := (proper seg List.mem_cons_self blank).2
      have others :=
        induction
          (fun other member =>
            proper other (List.mem_cons_of_mem seg member))
          (by omega)
      rw [clens_cons, blanks_cons, if_pos blank, single, others]
      omega

/-! ## The invariant -/

/-- The states in which the application may still send. -/
def maySend : TcpState → Bool
  | .synRcvd | .established | .closeWait => true
  | _ => false

/-- The number of bare segments: the SYN, and the FIN once it is queued. -/
def bareLimit (state : TcpState) : Nat := if maySend state then 1 else 2

/-- The queues agree with the counters of the control block. -/
structure Queued (pcb : TcpPcb) : Prop where
  proper : ∀ seg ∈ queue pcb, Proper seg
  data : lens (queue pcb) + pcb.sndBuf = tcpSndBuf
  clen : clens (queue pcb) = pcb.sndQueuelen
  bare : blanks (queue pcb) ≤ bareLimit pcb.state

theorem Queued.occupied {pcb : TcpPcb} (holds : Queued pcb) :
    Occupied pcb.unsent :=
  occupied_of_proper fun seg member =>
    holds.proper seg (List.mem_append_right _ member)

/-- An empty send buffer has at most two segments on its queues. -/
theorem Queued.slack {pcb : TcpPcb} (holds : Queued pcb)
    (empty : pcb.sndBuf = tcpSndBuf) :
    pcb.sndQueuelen ≤ 2 := by
  have data := holds.data
  have nothing : lens (queue pcb) = 0 := by omega
  have count := clens_of_lens_zero holds.proper nothing
  have bare := holds.bare
  rw [← holds.clen, count]
  unfold bareLimit at bare
  split at bare <;> omega

/-- Permuted queues keep their accounts. -/
theorem Queued.perm
    {pcb next : TcpPcb} (holds : Queued pcb)
    (permuted : (queue next).Perm (queue pcb))
    (sndBuf : next.sndBuf = pcb.sndBuf)
    (sndQueuelen : next.sndQueuelen = pcb.sndQueuelen)
    (state : maySend next.state = maySend pcb.state) :
    Queued next where
  proper := fun seg member => holds.proper seg (permuted.mem_iff.mp member)
  data := by
    have same : lens (queue next) = lens (queue pcb) :=
      (permuted.map TcpSeg.len).sum_eq
    rw [same, sndBuf]
    exact holds.data
  clen := by
    have same : clens (queue next) = clens (queue pcb) :=
      (permuted.map TcpSeg.pbufClen).sum_eq
    rw [same, sndQueuelen]
    exact holds.clen
  bare := by
    have same : blanks (queue next) = blanks (queue pcb) :=
      permuted.countP_eq _
    rw [same, bareLimit, state]
    exact holds.bare

/--
The queues agree with the counters, or the connection is in TIME-WAIT, where
they were given up and the counters stand still.
-/
def Accounted (pcb : TcpPcb) : Prop :=
  Queued pcb ∨
    (pcb.state = .timeWait ∧ pcb.sndBuf ≤ tcpSndBuf ∧
      (pcb.sndBuf = tcpSndBuf → pcb.sndQueuelen ≤ 2))

theorem Queued.sndBuf_le {pcb : TcpPcb} (holds : Queued pcb) :
    pcb.sndBuf ≤ tcpSndBuf := by
  have data := holds.data
  omega

theorem Accounted.sndBuf_le {pcb : TcpPcb} (holds : Accounted pcb) :
    pcb.sndBuf ≤ tcpSndBuf := by
  rcases holds with queued | ⟨_, bound, _⟩
  · exact queued.sndBuf_le
  · exact bound

theorem Accounted.slack {pcb : TcpPcb} (holds : Accounted pcb)
    (empty : pcb.sndBuf = tcpSndBuf) :
    pcb.sndQueuelen ≤ 2 := by
  rcases holds with queued | ⟨_, _, slack⟩
  · exact queued.slack empty
  · exact slack empty

/-- Outside TIME-WAIT the queues are there. -/
theorem Accounted.queued {pcb : TcpPcb} (holds : Accounted pcb)
    (active : pcb.state ≠ .timeWait) :
    Queued pcb := by
  rcases holds with queued | ⟨waits, _⟩
  · exact queued
  · exact absurd waits active

/-- Permuted queues keep their accounts. -/
theorem Accounted.perm
    {pcb next : TcpPcb} (holds : Accounted pcb)
    (permuted : Occupied pcb.unsent → (queue next).Perm (queue pcb))
    (sndBuf : next.sndBuf = pcb.sndBuf)
    (sndQueuelen : next.sndQueuelen = pcb.sndQueuelen)
    (state : next.state = pcb.state) :
    Accounted next := by
  rcases holds with queued | ⟨waits, bound, slack⟩
  · refine .inl (queued.perm (permuted queued.occupied) sndBuf
      sndQueuelen ?_)
    rw [state]
  · refine .inr ⟨state.trans waits, ?_, ?_⟩
    · rw [sndBuf]
      exact bound
    · rw [sndBuf, sndQueuelen]
      exact slack

/-! ## New segments -/

/-- With segments of length zero `tcp_write` gets nowhere. -/
theorem createSegments_zero
    (fuel queuelen seqno : Nat) (byte : UInt8) (rest : List UInt8) :
    createSegments 0 fuel queuelen seqno (byte :: rest) = none := by
  induction fuel generalizing queuelen seqno with
  | zero =>
      rfl
  | succ fuel induction =>
      simp only [createSegments, List.drop_zero, induction]
      split <;> rfl

/-- The segments which `tcp_write` creates. -/
theorem createSegments_spec
    {maxLen fuel queuelen seqno total : Nat} {data : List UInt8}
    {segs : List TcpSeg}
    (created :
      createSegments maxLen fuel queuelen seqno data =
        some (segs, total)) :
    lens segs = data.length ∧ total = queuelen + clens segs ∧
      ∀ seg ∈ segs,
        seg.len ≠ 0 ∧ seg.len ≤ maxLen ∧ seg.pbufClen = 2 ∧
          seg.optlen = 0 := by
  induction fuel generalizing queuelen seqno data segs total with
  | zero =>
      cases data with
      | nil =>
          cases created
          simp
      | cons byte rest =>
          cases created
  | succ fuel induction =>
      cases data with
      | nil =>
          cases created
          simp
      | cons byte rest =>
          simp only [createSegments] at created
          split at created
          · cases created
          · split at created
            · cases created
            · next later others sum inner =>
                cases created
                rcases induction inner with ⟨bytes, count, shapes⟩
                have positive : maxLen ≠ 0 := by
                  intro zero
                  rw [zero, List.drop_zero,
                    createSegments_zero] at inner
                  cases inner
                have length :
                    (romSegment seqno
                        ((byte :: rest).take maxLen)).len =
                      min maxLen (rest.length + 1) := by
                  simp [romSegment, TcpSeg.len, TcpSeg.data]
                have pbufs :
                    (romSegment seqno
                        ((byte :: rest).take maxLen)).pbufClen = 2 :=
                  rfl
                refine ⟨?_, ?_, ?_⟩
                · rw [lens_cons, bytes, length, List.length_drop,
                    List.length_cons]
                  omega
                · rw [clens_cons, count, pbufs]
                  omega
                · intro seg member
                  rcases List.mem_cons.mp member with rfl | inside
                  · refine ⟨?_, ?_, pbufs, rfl⟩
                    · rw [length]
                      omega
                    · rw [length]
                      exact Nat.min_le_left _ _
                  · exact shapes seg inside

/-- The ways in which `tcp_write` queues data. -/
inductive Writes (pcb : TcpPcb) (data : List UInt8) : TcpPcb → Prop where
  | fresh
      (empty : pcb.unsent = [])
      (created :
        createSegments pcb.mssLocal data.length pcb.sndQueuelen
          pcb.sndLbb data = some (segs, total)) :
      Writes pcb data (commitWrite pcb segs data.length total)
  | behind
      (unsent : pcb.unsent = front ++ [last])
      (full : min (appendSpace pcb last) data.length = 0)
      (created :
        createSegments pcb.mssLocal data.length pcb.sndQueuelen seqno
          data = some (segs, total)) :
      Writes pcb data
        (commitWrite pcb (front ++ last :: segs) data.length total)
  | extending
      (unsent : pcb.unsent = front ++ [last])
      (space : min (appendSpace pcb last) data.length = taken)
      (positive : taken ≠ 0)
      (created :
        createSegments pcb.mssLocal data.length (pcb.sndQueuelen + 1)
          seqno (data.drop taken) = some (segs, total)) :
      Writes pcb data
        (commitWrite pcb
          (front ++ appendRom last (data.take taken) :: segs)
          data.length total)

theorem writes_of_tcpWrite
    {pcb next : TcpPcb} {data : List UInt8}
    (written : tcpWrite pcb data = .ok (.ok, next)) :
    Writes pcb data next := by
  unfold tcpWrite at written
  split at written
  · cases written
  · split at written
    · next absent =>
        simp only [Except.ok.injEq, writeFresh] at written
        split at written
        · cases written
        · next segs total created =>
            cases written
            exact .fresh (List.getLast?_eq_none_iff.mp absent) created
    · next last present =>
        have unsent : pcb.unsent = pcb.unsent.dropLast ++ [last] :=
          (List.dropLast_append_getLast? last present).symm
        split at written
        · cases written
        · simp only [Except.ok.injEq, writeBehind] at written
          split at written
          · cases written
          · next segs total created =>
              cases written
              by_cases full :
                  min (appendSpace pcb last) data.length = 0
              · simp only [full, if_true, List.drop_zero] at created ⊢
                exact .behind unsent full created
              · simp only [full, if_false] at created ⊢
                exact .extending unsent rfl full created
  · next refused _ =>
      cases written
      exact absurd rfl refused

theorem len_appendRom (seg : TcpSeg) (data : List UInt8) :
    (appendRom seg data).len = seg.len + data.length := by
  simp [appendRom, TcpSeg.len, TcpSeg.data]
  omega

theorem pbufClen_appendRom (seg : TcpSeg) (data : List UInt8) :
    (appendRom seg data).pbufClen = seg.pbufClen + 1 := by
  simp [appendRom, TcpSeg.pbufClen]
  omega

theorem blanks_of_filled
    {segs : List TcpSeg} (filled : ∀ seg ∈ segs, seg.len ≠ 0) :
    blanks segs = 0 := by
  rw [blanks, List.countP_eq_zero]
  intro seg member
  simpa using filled seg member

/-- A segment is extended only if it has payload. -/
theorem len_of_appendSpace
    {pcb : TcpPcb} {last : TcpSeg} {size : Nat}
    (positive : min (appendSpace pcb last) size ≠ 0) :
    last.len ≠ 0 := by
  intro blank
  simp [appendSpace, blank] at positive

/-- `tcp_write` keeps the accounts. -/
theorem Queued.write
    {pcb next : TcpPcb} (holds : Queued pcb) {data : List UInt8}
    (writes : Writes pcb data next)
    (fits : data.length ≤ pcb.sndBuf) :
    Queued next := by
  have data_ := holds.data
  have clen := holds.clen
  have bare := holds.bare
  cases writes with
  | @fresh segs total empty created =>
      rcases createSegments_spec created with ⟨bytes, count, shapes⟩
      have solid := blanks_of_filled fun seg member =>
        (shapes seg member).1
      simp only [queue, empty, List.append_nil] at data_ clen bare
      constructor
      · intro seg member
        rcases List.mem_append.mp member with old | new
        · exact holds.proper seg (List.mem_append_left _ old)
        · intro blank
          exact absurd blank (shapes seg new).1
      · simp only [queue, commitWrite, lens_append]
        omega
      · simp only [queue, commitWrite, clens_append]
        omega
      · simp only [queue, commitWrite, blanks_append, solid]
        exact bare
  | @behind front last seqno segs total unsent full created =>
      rcases createSegments_spec created with ⟨bytes, count, shapes⟩
      have solid := blanks_of_filled fun seg member =>
        (shapes seg member).1
      simp only [queue, unsent, lens_append, clens_append,
        blanks_append, lens_cons, clens_cons, blanks_cons, lens_nil,
        clens_nil, blanks_nil] at data_ clen bare
      constructor
      · intro seg member
        simp only [queue, commitWrite, List.mem_append,
          List.mem_cons] at member
        rcases member with old | old | rfl | new
        · exact holds.proper seg (List.mem_append_left _ old)
        · refine holds.proper seg (List.mem_append_right _ ?_)
          rw [unsent]
          exact List.mem_append_left _ old
        · refine holds.proper _ (List.mem_append_right _ ?_)
          rw [unsent]
          exact List.mem_append_right _ List.mem_cons_self
        · intro blank
          exact absurd blank (shapes seg new).1
      · simp only [queue, commitWrite, lens_append, lens_cons]
        omega
      · simp only [queue, commitWrite, clens_append, clens_cons]
        omega
      · simp only [queue, commitWrite, blanks_append, blanks_cons, solid]
        omega
  | @extending front last taken seqno segs total unsent space positive
      created =>
      rcases createSegments_spec created with ⟨bytes, count, shapes⟩
      have solid := blanks_of_filled fun seg member =>
        (shapes seg member).1
      rw [← space] at positive
      have filled : last.len ≠ 0 := len_of_appendSpace positive
      rw [space] at positive
      have inside : taken ≤ data.length := by
        rw [← space]
        exact Nat.min_le_right _ _
      have length :
          (appendRom last (data.take taken)).len = last.len + taken := by
        rw [len_appendRom, List.length_take, Nat.min_eq_left inside]
      rw [List.length_drop] at bytes
      simp only [queue, unsent, lens_append, clens_append,
        blanks_append, lens_cons, clens_cons, blanks_cons, lens_nil,
        clens_nil, blanks_nil, if_neg filled] at data_ clen bare
      constructor
      · intro seg member
        simp only [queue, commitWrite, List.mem_append,
          List.mem_cons] at member
        rcases member with old | old | rfl | new
        · exact holds.proper seg (List.mem_append_left _ old)
        · refine holds.proper seg (List.mem_append_right _ ?_)
          rw [unsent]
          exact List.mem_append_left _ old
        · intro blank
          rw [length] at blank
          omega
        · intro blank
          exact absurd blank (shapes seg new).1
      · simp only [queue, commitWrite, lens_append, lens_cons, length]
        omega
      · simp only [queue, commitWrite, clens_append, clens_cons,
          pbufClen_appendRom]
        omega
      · have nonblank :
            ¬ (appendRom last (data.take taken)).len = 0 := by
          rw [length]
          omega
        simp only [queue, commitWrite, blanks_append, blanks_cons, solid,
          if_neg nonblank]
        omega

end Nsproxy.Lwip.Queues
