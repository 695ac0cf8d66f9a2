import Nsproxy.Lwip.ReassemblySteps

/-!
# What is delivered in sequence

A segment which begins at `rcv_nxt`, and the queued segments which it makes
deliverable, take the receiver on along the stream: what was delivered is a
front of the stream, and the right edge of the window stays where it is.  An
assertion fails only if a queued segment lies beyond that edge.
-/

namespace Nsproxy.Lwip.Reassembly

open Nsproxy.Lib.SerialNumber

variable {stream : List UInt8} {start : Seqno}

/-- The sequence number which a FIN takes. -/
def Received.finLen (received : Received) : Nat :=
  if received.gotFin then 1 else 0

/--
The receiver has come to a position of the stream, where `before` and what it
has now got for the application is everything up to there.
-/
structure Fed
    (stream : List UInt8) (start : Seqno) (edge : Nat)
    (before : List UInt8) (rcvd : Nat)
    (pcb : Receiver) (received : Received) : Prop where
  next : pcb.rcvNxt = number start (rcvd + received.finLen)
  edge : rcvd + received.finLen + pcb.rcvWnd = edge
  data : before ++ received.data = stream.take rcvd
  within : rcvd ≤ stream.length
  ended : received.gotFin = true → rcvd = stream.length

section InSequence

variable {edge rcvd high low : Nat} {before : List UInt8}
  {pcb : Receiver} {received : Received} {seg : Seg}

theorem finLen_add (seg : Seg) (open_ : received.gotFin = false) :
    seg.len + (received.add seg).finLen = seg.tcplen := by
  simp [Received.finLen, Received.add, open_, Seg.tcplen]

theorem accept_receives
    {assertion : Assertion} {next : Receiver}
    (accepted : accept pcb seg assertion = .ok next) :
    next.receives = pcb.receives := by
  unfold accept at accepted
  split at accepted
  · cases accepted
  · cases accepted
    rfl

/-- A segment takes the receiver on, unless it goes beyond the window. -/
theorem accept_spec
    (fed : Fed stream start edge before rcvd pcb received)
    (open_ : received.gotFin = false)
    (cut : Cut stream start rcvd seg) (assertion : Assertion) :
    (∃ next,
      accept pcb seg assertion = .ok next ∧
        Fed stream start edge before (rcvd + seg.len) next
          (received.add seg)) ∨
    (accept pcb seg assertion = .error assertion ∧
      edge < rcvd + seg.tcplen) := by
  have unended : received.finLen = 0 := by simp [Received.finLen, open_]
  have right := fed.edge
  rw [unended, Nat.add_zero] at right
  by_cases excess : pcb.rcvWnd < seg.tcplen
  · right
    exact ⟨if_pos excess, by omega⟩
  · left
    have total := finLen_add seg open_
    refine ⟨_, if_neg excess, ?_⟩
    constructor
    · simp only [fed.next, unended, Nat.add_zero, number_add]
      rw [Nat.add_assoc, total]
    · simp only
      omega
    · have piece : seg.data = (stream.drop rcvd).take seg.len :=
        List.prefix_iff_eq_take.mp cut.data
      rw [Received.add, ← List.append_assoc, fed.data, List.take_add,
        ← piece]
    · exact cut.end_le
    · intro ended
      apply cut.end_fin
      simpa [Received.add, open_] using ended

/-- How far the receiver has come when the queue was looked through. -/
structure Dequeued
    (stream : List UInt8) (start : Seqno) (edge high rcvd : Nat)
    (before : List UInt8) (later : Nat)
    (result : Receiver × Received) : Prop where
  fed : Fed stream start edge before later result.1 result.2
  onward : rcvd ≤ later
  closed : result.2.gotFin = true → result.1.ooseq = []
  queued : Queued stream start high (later + 1) result.1.ooseq

theorem dequeue_spec
    {queue : List Seg}
    (fed : Fed stream start edge before rcvd pcb received)
    (closed : received.gotFin = true → queue = [])
    (queued : Queued stream start high low queue)
    (behind : rcvd ≤ low) (near : high ≤ rcvd + horizon) :
    (∃ later result,
      dequeue queue pcb received = .ok result ∧
        Dequeued stream start edge high rcvd before later result ∧
        result.1.receives = pcb.receives ∧
        rcvd + received.finLen ≤ later + result.2.finLen ∧
        (∀ next more, queue = next :: more → next.seqno = pcb.rcvNxt →
          rcvd + next.len ≤ later)) ∨
    (∃ assertion,
      dequeue queue pcb received = .error assertion ∧ edge < high) := by
  induction queue generalizing pcb received rcvd low with
  | nil =>
      left
      refine
        ⟨rcvd, _, rfl, ?_, rfl, Nat.le_refl _,
          fun _ _ absent => nomatch absent⟩
      exact
        ⟨⟨fed.next, fed.edge, fed.data, fed.within, fed.ended⟩,
          Nat.le_refl _, fun _ => rfl, trivial⟩
  | cons cseg rest induction =>
      rcases queued with ⟨pos, standing, later⟩
      have open_ : received.gotFin = false := by
        cases got : received.gotFin with
        | false => rfl
        | true => exact nomatch closed got
      have next : pcb.rcvNxt = number start rcvd := by
        rw [fed.next]
        simp [Received.finLen, open_]
      have least := standing.low
      have most := standing.high
      have first :
          cseg.seqno = pcb.rcvNxt ↔ pos = rcvd := by
        unfold horizon at near
        rw [next, standing.cut.seqno]
        exact number_inj (by omega) (by omega)
      unfold dequeue
      by_cases here : pos = rcvd
      · subst here
        rw [if_pos (first.mpr rfl)]
        rcases accept_spec fed open_ standing.cut
            .ooseqTcplenOverRcvWnd with ⟨onto, accepted, onward⟩ | fails
        · have got : (received.add cseg).gotFin = true → rest = [] := by
            intro ended
            apply standing.last
            simpa [Received.add, open_] using ended
          rw [accepted]
          have same := accept_receives accepted
          have total := finLen_add cseg open_
          rcases induction onward got later (Nat.le_refl _) (by omega) with
            ⟨far, result, passed, dequeued, kept, reached, _⟩ | failed
          · left
            refine ⟨far, result, passed, ?_, kept.trans same, ?_, ?_⟩
            · exact
                { dequeued with
                  onward :=
                    Nat.le_trans (Nat.le_add_right _ _) dequeued.onward }
            · have unended : received.finLen = 0 := by
                simp [Received.finLen, open_]
              omega
            · intro _ _ equal _
              cases equal
              exact dequeued.onward
          · exact Or.inr failed
        · right
          rw [fails.1]
          exact ⟨_, rfl, by omega⟩
      · rw [if_neg (fun same => here (first.mp same))]
        left
        refine ⟨rcvd, _, rfl, ?_, rfl, Nat.le_refl _, ?_⟩
        · exact
            ⟨⟨fed.next, fed.edge, fed.data, fed.within, fed.ended⟩,
              Nat.le_refl _, fun got => by simp [open_] at got,
              ⟨pos, { standing with low := by omega }, later⟩⟩
        · intro _ _ equal same
          cases equal
          exact absurd (first.mp same) here

/-- Everything of the segment which fits in the window is delivered. -/
theorem receiveInSequence_spec
    (next : pcb.rcvNxt = number start rcvd)
    (data : before = stream.take rcvd) (within : rcvd ≤ stream.length)
    (wide : 0 < pcb.rcvWnd)
    (cut : Cut stream start rcvd seg) (nonempty : 0 < seg.tcplen)
    (queued : Queued stream start high (rcvd + 1) pcb.ooseq)
    (near : high ≤ rcvd + horizon) :
    (∃ later result,
      receiveInSequence pcb seg = .ok result ∧
        Dequeued stream start (rcvd + pcb.rcvWnd) high rcvd before later
          result ∧
        result.1.receives = pcb.receives ∧
        rcvd + min seg.tcplen pcb.rcvWnd ≤ later + result.2.finLen) ∨
    (∃ assertion,
      receiveInSequence pcb seg = .error assertion ∧
        rcvd + pcb.rcvWnd < high) := by
  rcases trimToWindow_eq cut next with ⟨fitting, trimmed, fits, size⟩
  rcases adjustOoseq_spec fits (by omega) queued near with
    ⟨⟨adjusted, ooseq⟩, done, adjust⟩
  have fed :
      Fed stream start (rcvd + pcb.rcvWnd) before rcvd pcb nothing :=
    { next := next
      edge := rfl
      data := by simpa [nothing] using data
      within := within
      ended := fun got => nomatch got }
  have most : adjusted.tcplen ≤ max fitting.tcplen (high - rcvd) :=
    adjust.most
  have rest : Queued stream start high (rcvd + adjusted.tcplen) ooseq :=
    adjust.rest
  have whole : Cut stream start rcvd adjusted := adjust.cut
  unfold receiveInSequence
  rw [trimmed]
  simp only [done]
  rcases accept_spec fed rfl whole .tcplenOverRcvWnd with
    ⟨onto, accepted, onward⟩ | fails
  · rw [accepted]
    have total :
        adjusted.len + (nothing.add adjusted).finLen = adjusted.tcplen :=
      finLen_add adjusted rfl
    have got : (nothing.add adjusted).gotFin = true → ooseq = [] := by
      intro ended
      apply adjust.last
      simpa [Received.add, nothing] using ended
    have least := Cut.len_le_tcplen adjusted
    rcases dequeue_spec onward got rest (by omega) (by omega) with
      ⟨later, result, passed, dequeued, kept, reached, taken⟩ | failed
    · left
      refine ⟨later, result, passed, ?_, ?_, ?_⟩
      · exact
          { dequeued with
            onward :=
              Nat.le_trans (Nat.le_add_right _ _) dequeued.onward }
      · exact kept.trans (accept_receives accepted)
      · rcases adjust.reaches with own | ⟨queued, more, rfl, stands, far⟩
        · have size : fitting.tcplen ≤ adjusted.tcplen := by
            have bound : rcvd + fitting.tcplen ≤ rcvd + adjusted.tcplen :=
              own
            omega
          omega
        · have open_ : adjusted.fin = false := by
            cases fin : adjusted.fin with
            | false => rfl
            | true => exact nomatch adjust.last fin
          have plain := Cut.tcplen_of_not_fin open_
          have unended : (nothing.add adjusted).finLen = 0 := by omega
          have first : queued.seqno = onto.rcvNxt := by
            rw [stands.cut.seqno, onward.next, unended, plain, Nat.add_zero]
          have beyond := taken queued more rfl first
          have bound :
              rcvd + fitting.tcplen ≤
                rcvd + adjusted.tcplen + queued.len := far
          omega
    · exact Or.inr failed
  · right
    rw [fails.1]
    refine ⟨_, rfl, ?_⟩
    have excess := fails.2
    omega

end InSequence

end Nsproxy.Lwip.Reassembly
