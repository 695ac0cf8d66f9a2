import Nsproxy.Lwip.Reassembly

/-!
# What the reassembly makes of a stream

The peer cuts its stream into segments.  A segment is a cut of the stream at
a position if it carries the number of the position, bytes which the stream
has there, and a FIN only behind the last of them.  The queue is a list of
such cuts which follow each other without overlap.

Each function of the receiver takes cuts to cuts.  Positions are natural
numbers and compare as their numbers do, because all positions which the
receiver ever compares are near.
-/

namespace Nsproxy.Lwip.Reassembly

open Nsproxy.Lib.SerialNumber
open Nsproxy.Lwip.Opts

/-! ## Positions -/

section Positions

variable {start : Seqno}

/-- The sequence number of a byte of the stream. -/
def number (start : Seqno) (pos : Nat) : Seqno := serial start pos

theorem near_of {first second : Int}
    (before : first ≤ second + 2147483647)
    (after : second ≤ first + 2147483647) :
    Near 32 first second := by
  unfold Near
  omega

@[simp]
theorem number_add (pos count : Nat) :
    number start pos + u32 count = number start (pos + count) := by
  rw [number, u32, serial_add, number, Int.natCast_add]

theorem number_sub_one (pos : Nat) :
    number start pos - u32 1 = serial start ((pos : Int) - 1) :=
  serial_sub start pos 1

variable {first second : Int}

theorem tcpSeqLt_serial
    (before : first ≤ second + 2147483647)
    (after : second ≤ first + 2147483647) :
    tcpSeqLt (serial start first) (serial start second) =
      decide (first < second) := by
  rw [tcpSeqLt, difference_serial (near_of before after), decide_eq_decide]
  omega

theorem tcpSeqLeq_serial
    (before : first ≤ second + 2147483647)
    (after : second ≤ first + 2147483647) :
    tcpSeqLeq (serial start first) (serial start second) =
      decide (first ≤ second) := by
  rw [tcpSeqLeq, difference_serial (near_of before after), decide_eq_decide]
  omega

theorem tcpSeqGt_serial
    (before : first ≤ second + 2147483647)
    (after : second ≤ first + 2147483647) :
    tcpSeqGt (serial start first) (serial start second) =
      decide (second < first) := by
  rw [tcpSeqGt, difference_serial (near_of before after), decide_eq_decide]
  omega

theorem tcpSeqGeq_serial
    (before : first ≤ second + 2147483647)
    (after : second ≤ first + 2147483647) :
    tcpSeqGeq (serial start first) (serial start second) =
      decide (second ≤ first) := by
  rw [tcpSeqGeq, difference_serial (near_of before after), decide_eq_decide]
  omega

theorem number_inj {low high : Nat}
    (before : low ≤ high + 2147483647) (after : high ≤ low + 2147483647) :
    number start low = number start high ↔ low = high := by
  rw [number, number, serial_inj (near_of (by omega) (by omega))]
  omega

/-- A short distance survives the cast to `u16_t`. -/
theorem u16_number {low high : Nat}
    (ordered : low ≤ high) (short : high - low < 65536) :
    u16 (number start high - number start low) = high - low := by
  rw [u16, number, number, toNat_serial_sub start ordered (by omega),
    Nat.mod_eq_of_lt short]

end Positions

/-! ## Cuts of a stream -/

/-- A segment which the peer may have cut out of its stream. -/
structure Cut
    (stream : List UInt8) (start : Seqno) (pos : Nat) (seg : Seg) : Prop where
  seqno : seg.seqno = number start pos
  within : pos ≤ stream.length
  data : seg.data <+: stream.drop pos
  fin : seg.fin = true → seg.data = stream.drop pos

namespace Cut

variable {stream : List UInt8} {start : Seqno} {pos : Nat} {seg : Seg}

theorem len_lt (seg : Seg) : seg.len < 65535 := seg.short

theorem end_le (cut : Cut stream start pos seg) :
    pos + seg.len ≤ stream.length := by
  have length := cut.data.length_le
  have within := cut.within
  rw [List.length_drop] at length
  unfold Seg.len
  omega

theorem end_fin (cut : Cut stream start pos seg)
    (fin : seg.fin = true) : pos + seg.len = stream.length := by
  have within := cut.within
  rw [Seg.len, cut.fin fin, List.length_drop]
  omega

theorem tcplen_of_not_fin (fin : seg.fin = false) :
    seg.tcplen = seg.len := by
  simp [Seg.tcplen, fin]

theorem tcplen_of_fin (fin : seg.fin = true) :
    seg.tcplen = seg.len + 1 := by
  simp [Seg.tcplen, fin]

theorem tcplen_le (seg : Seg) : seg.tcplen ≤ 65535 := by
  have short := len_lt seg
  unfold Seg.tcplen
  split <;> omega

theorem len_le_tcplen (seg : Seg) : seg.len ≤ seg.tcplen :=
  Nat.le_add_right _ _

/-- The front of a cut without a FIN is a cut. -/
theorem trim (cut : Cut stream start pos seg)
    (fin : seg.fin = false) {len : Nat} (least : len ≤ seg.len) :
    Cut stream start pos (seg.trim len) ∧
      (seg.trim len).len = len ∧ (seg.trim len).tcplen = len := by
  have length : (seg.trim len).len = len := by
    simp only [Seg.trim, Seg.len, List.length_take]
    exact Nat.min_eq_left least
  refine ⟨⟨cut.seqno, cut.within, ?_, ?_⟩, length, ?_⟩
  · exact (List.take_prefix len seg.data).trans cut.data
  · intro ended
    exact absurd ended (by simp [Seg.trim, fin])
  · rw [tcplen_of_not_fin (by simpa [Seg.trim] using fin), length]

theorem clearFin (cut : Cut stream start pos seg) :
    Cut stream start pos seg.clearFin :=
  ⟨cut.seqno, cut.within, cut.data, fun ended => nomatch ended⟩

/-- A cut which comes to the end of the stream may carry the FIN. -/
theorem setFin (cut : Cut stream start pos seg)
    (last : pos + seg.len = stream.length) :
    Cut stream start pos seg.setFin := by
  refine ⟨cut.seqno, cut.within, cut.data, fun _ => ?_⟩
  apply cut.data.eq_of_length
  rw [List.length_drop]
  unfold Seg.len at last
  omega

/-- The back of a cut is a cut. -/
theorem advance (cut : Cut stream start pos seg)
    {offset : Nat} (least : offset ≤ seg.len) :
    Cut stream start (pos + offset)
        (seg.advance offset (number start (pos + offset))) ∧
      offset + (seg.advance offset (number start (pos + offset))).tcplen =
        seg.tcplen := by
  have last := cut.end_le
  refine ⟨⟨rfl, by omega, ?_, ?_⟩, ?_⟩
  · rcases cut.data with ⟨rest, whole⟩
    refine ⟨rest, ?_⟩
    rw [← List.drop_drop, ← whole, List.drop_append_of_le_length least]
    rfl
  · intro ended
    rw [← List.drop_drop, ← cut.fin ended]
    rfl
  · have bound : offset ≤ seg.data.length := least
    cases fin : seg.fin <;>
      simp only [Seg.tcplen, Seg.len, Seg.advance, List.length_drop, fin] <;>
      omega

end Cut

/-! ## The edges of a segment -/

section Edges

variable {stream : List UInt8} {start : Seqno} {pos rcvd : Nat} {seg : Seg}
  {pcb : Receiver}

/-- How far apart positions may be which the receiver compares. -/
def horizon : Nat := 1073741824

/-- What the test for the first edge asks. -/
theorem between_front
    (cut : Cut stream start pos seg) (nonempty : 0 < seg.tcplen)
    (young : pos ≤ rcvd + horizon) (recent : rcvd ≤ pos + horizon) :
    tcpSeqBetween (number start rcvd) (seg.seqno + u32 1)
        (seg.seqno + u32 seg.tcplen - u32 1) =
      decide (pos < rcvd ∧ rcvd < pos + seg.tcplen) := by
  have bound := Cut.tcplen_le seg
  unfold horizon at young recent
  rw [cut.seqno, number_add, number_add, number_sub_one, tcpSeqBetween,
    number, number, tcpSeqGeq_serial (by omega) (by omega),
    tcpSeqLeq_serial (by omega) (by omega), ← Bool.decide_and,
    decide_eq_decide]
  omega

/-- The first edge is trimmed without a fault. -/
theorem trimFront_eq
    (cut : Cut stream start pos seg) (nonempty : 0 < seg.tcplen)
    (next : pcb.rcvNxt = number start rcvd)
    (young : pos ≤ rcvd + horizon) (recent : rcvd ≤ pos + horizon) :
    ∃ first rest,
      trimFront pcb seg = .ok rest ∧ Cut stream start first rest ∧
        0 < rest.tcplen ∧ first + rest.tcplen = pos + seg.tcplen ∧
        (first = rcvd ∨
          first = pos ∧ (rcvd ≤ pos ∨ pos + seg.tcplen ≤ rcvd)) := by
  have test := between_front cut nonempty young recent
  by_cases part : pos < rcvd ∧ rcvd < pos + seg.tcplen
  · have bound := Cut.tcplen_le seg
    have short := Cut.len_lt seg
    have most : seg.tcplen ≤ seg.len + 1 := by
      unfold Seg.tcplen
      split <;> omega
    have offset : (pcb.rcvNxt - seg.seqno).toNat = rcvd - pos := by
      rw [next, cut.seqno]
      exact toNat_serial_sub start (by omega) (by omega)
    have advanced := cut.advance (show rcvd - pos ≤ seg.len by omega)
    rw [show pos + (rcvd - pos) = rcvd by omega] at advanced
    refine ⟨rcvd, _, ?_, advanced.1, by omega, by omega, Or.inl rfl⟩
    rw [trimFront, next, test, if_pos (by simpa using part), ← next, offset,
      if_neg (by omega), if_neg (by omega), next]
  · refine ⟨pos, seg, ?_, cut, nonempty, rfl, Or.inr ⟨rfl, by omega⟩⟩
    rw [trimFront, next, test, if_neg (by simpa using part)]

/-- What the test for the window asks. -/
theorem between_window {wnd : Nat}
    (young : pos ≤ rcvd + horizon) (recent : rcvd ≤ pos + horizon)
    (small : wnd ≤ 1048576) :
    tcpSeqBetween (number start pos) (number start rcvd)
        (number start rcvd + u32 wnd - u32 1) =
      decide (rcvd ≤ pos ∧ pos < rcvd + wnd) := by
  unfold horizon at young recent
  rw [number_add, number_sub_one, tcpSeqBetween, number, number,
    tcpSeqGeq_serial (by omega) (by omega),
    tcpSeqLeq_serial (by omega) (by omega), ← Bool.decide_and,
    decide_eq_decide]
  omega

/-- A segment in sequence is made to fit in the window without a fault. -/
theorem trimToWindow_eq
    (cut : Cut stream start rcvd seg)
    (next : pcb.rcvNxt = number start rcvd) :
    ∃ fitting,
      trimToWindow pcb seg = .ok fitting ∧
        Cut stream start rcvd fitting ∧
        fitting.tcplen = min seg.tcplen pcb.rcvWnd := by
  by_cases excess : pcb.rcvWnd < seg.tcplen
  · have bound := Cut.tcplen_le seg
    have most : seg.tcplen ≤ seg.len + 1 := by
      unfold Seg.tcplen
      split <;> omega
    have trimmed := cut.clearFin.trim rfl
      (show pcb.rcvWnd ≤ seg.clearFin.len from
        Nat.lt_succ_iff.mp (Nat.lt_of_lt_of_le excess most))
    refine ⟨_, ?_, trimmed.1, ?_⟩
    · rw [trimToWindow, if_pos excess, if_neg (by omega)]
      simp only [trimmed.2.2]
      rw [if_pos (by rw [cut.seqno, next])]
    · rw [trimmed.2.2, Nat.min_eq_right (Nat.le_of_lt excess)]
  · refine ⟨seg, ?_, cut, ?_⟩
    · rw [trimToWindow, if_neg excess]
    · rw [Nat.min_eq_left (Nat.le_of_not_lt excess)]

end Edges

/-! ## The queue -/

/-- A segment which is queued at a position, in front of the rest. -/
structure Standing
    (stream : List UInt8) (start : Seqno) (high low pos : Nat)
    (seg : Seg) (rest : List Seg) : Prop where
  low : low ≤ pos
  cut : Cut stream start pos seg
  nonempty : 0 < seg.tcplen
  high : pos + seg.tcplen ≤ high
  last : seg.fin = true → rest = []

/-- Cuts between two positions which follow each other without overlap. -/
def Queued
    (stream : List UInt8) (start : Seqno) (high : Nat) :
    Nat → List Seg → Prop
  | _, [] => True
  | low, seg :: rest =>
      ∃ pos,
        Standing stream start high low pos seg rest ∧
          Queued stream start high (pos + seg.len) rest

section Queue

variable {stream : List UInt8} {start : Seqno} {high low pos : Nat}
  {seg inseg : Seg} {queue rest : List Seg}

theorem Standing.lower
    (standing : Standing stream start high low pos seg rest)
    {lower : Nat} (below : lower ≤ low) :
    Standing stream start high lower pos seg rest :=
  { standing with low := Nat.le_trans below standing.low }

theorem Queued.lower
    (queued : Queued stream start high low queue)
    {lower : Nat} (below : lower ≤ low) :
    Queued stream start high lower queue := by
  cases queue with
  | nil => trivial
  | cons seg rest =>
      rcases queued with ⟨pos, standing, later⟩
      exact ⟨pos, standing.lower below, later⟩

theorem Queued.higher
    (queued : Queued stream start high low queue)
    {higher : Nat} (above : high ≤ higher) :
    Queued stream start higher low queue := by
  induction queue generalizing low with
  | nil => trivial
  | cons seg rest induction =>
      rcases queued with ⟨pos, standing, later⟩
      exact
        ⟨pos,
          { standing with high := Nat.le_trans standing.high above },
          induction later⟩

/-- A segment which is not the last one of the queue has data. -/
theorem Standing.len_pos
    (standing : Standing stream start high low pos seg rest)
    (more : rest ≠ []) : 0 < seg.len := by
  have open_ : seg.fin = false := by
    cases fin : seg.fin with
    | false => rfl
    | true => exact absurd (standing.last fin) more
  have nonempty := standing.nonempty
  rwa [Cut.tcplen_of_not_fin open_] at nonempty

/-- Whether a cut reaches as far as the data of a queued one. -/
theorem covers_iff
    (reach : Nat) {first second : Nat} {begin last : Seqno}
    (one : begin = number start first) (two : last = number start second)
    (near : second + seg.len ≤ first + horizon)
    (short : reach ≤ 65535) (behind : first ≤ second) :
    tcpSeqGeq (begin + u32 reach) (last + u32 seg.len) =
      decide (second + seg.len ≤ first + reach) := by
  unfold horizon at near
  rw [one, two, number_add, number_add, number, number,
    tcpSeqGeq_serial (by omega) (by omega), decide_eq_decide]
  omega

/-- Whether a cut goes beyond the beginning of a queued one. -/
theorem overlaps_iff
    (reach : Nat) {first second : Nat} {begin last : Seqno}
    (one : begin = number start first) (two : last = number start second)
    (near : second ≤ first + horizon)
    (short : reach ≤ 65535) (behind : first ≤ second + 65535) :
    tcpSeqGt (begin + u32 reach) last =
      decide (second < first + reach) := by
  unfold horizon at near
  rw [one, two, number_add, number, number,
    tcpSeqGt_serial (by omega) (by omega), decide_eq_decide]
  omega

/-- A cut which covers a queued FIN comes to the end of the stream. -/
theorem Cut.takesFin
    (cut : Cut stream start pos inseg) {second : Nat}
    (other : Cut stream start second seg) (fin : seg.fin = true)
    (covers : second + seg.len ≤ pos + inseg.len) :
    Cut stream start pos inseg.setFin ∧ pos + inseg.len = second + seg.len := by
  have last := other.end_fin fin
  have most := cut.end_le
  exact ⟨cut.setFin (by omega), by omega⟩

/-- What is left when everything which a segment covers is removed. -/
structure Absorbed
    (stream : List UInt8) (start : Seqno) (high low pos : Nat)
    (inseg : Seg) (result : Seg × List Seg) : Prop where
  cut : Cut stream start pos result.1
  len : result.1.len = inseg.len
  tcplen : inseg.tcplen ≤ result.1.tcplen
  most : result.1.tcplen ≤ max inseg.tcplen (high - pos)
  last : result.1.fin = true → result.2 = []
  rest : Queued stream start high low result.2
  beyond :
    ∀ next more second, result.2 = next :: more →
      next.seqno = number start second → pos ≤ second →
        second + next.len ≤ high → pos + inseg.len < second + next.len

theorem absorb_spec
    (cut : Cut stream start pos inseg)
    (closed : inseg.fin = true → queue = [])
    (queued : Queued stream start high low queue)
    (behind : pos ≤ low) (near : high ≤ pos + horizon) :
    Absorbed stream start high low pos inseg (absorb inseg queue) := by
  induction queue generalizing inseg low with
  | nil =>
      exact
        { cut := cut
          len := rfl
          tcplen := Nat.le_refl _
          most := Nat.le_max_left _ _
          last := fun _ => rfl
          rest := trivial
          beyond := fun _ _ _ absent => nomatch absent }
  | cons next rest induction =>
      rcases queued with ⟨second, standing, later⟩
      have open_ : inseg.fin = false := by
        cases fin : inseg.fin with
        | false => rfl
        | true => exact nomatch closed fin
      have plain := Cut.tcplen_of_not_fin open_
      have short := Cut.tcplen_le inseg
      have nextLen := Cut.len_le_tcplen next
      have least := standing.low
      have most := standing.high
      have close : second + next.len ≤ pos + horizon := by omega
      have covers := covers_iff inseg.tcplen cut.seqno standing.cut.seqno
        close short (by omega)
      unfold absorb
      by_cases covered : second + next.len ≤ pos + inseg.tcplen
      · rw [if_pos (covers.trans (decide_eq_true covered))]
        cases fin : next.fin with
        | true =>
            have last := standing.last fin
            subst last
            have taken := cut.takesFin standing.cut fin (by omega)
            have more := Cut.tcplen_of_fin fin
            have set : inseg.setFin.tcplen = inseg.len + 1 :=
              Cut.tcplen_of_fin rfl
            exact
              { cut := taken.1
                len := rfl
                tcplen := by
                  simp only [absorb, if_true]
                  omega
                most := by
                  simp only [absorb, if_true]
                  omega
                last := fun _ => rfl
                rest := trivial
                beyond := fun _ _ _ absent => nomatch absent }
        | false =>
            have absorbed := induction cut (by simp [open_]) later
              (by omega)
            simp only [Bool.false_eq_true, if_false]
            exact
              { absorbed with
                rest := absorbed.rest.lower (by omega) }
      · rw [if_neg (by rw [covers]; simpa using covered)]
        exact
          { cut := cut
            len := rfl
            tcplen := Nat.le_refl _
            most := Nat.le_max_left _ _
            last := by simp [open_]
            rest := ⟨second, standing, later⟩
            beyond := by
              intro _ _ other same numbered after bound
              cases same
              have limit : other + next.len ≤ pos + horizon := by omega
              have test := covers_iff inseg.tcplen cut.seqno numbered limit
                short after
              rw [covers] at test
              have equal := decide_eq_decide.mp test
              omega }

/-- A segment in sequence and a queue which were adjusted to each other. -/
structure Adjusted
    (stream : List UInt8) (start : Seqno) (high pos : Nat)
    (inseg : Seg) (result : Seg × List Seg) : Prop where
  cut : Cut stream start pos result.1
  nonempty : 0 < result.1.tcplen
  most : result.1.tcplen ≤ max inseg.tcplen (high - pos)
  last : result.1.fin = true → result.2 = []
  rest : Queued stream start high (pos + result.1.tcplen) result.2
  reaches :
    pos + inseg.tcplen ≤ pos + result.1.tcplen ∨
      ∃ next more,
        result.2 = next :: more ∧
          Standing stream start high (pos + result.1.tcplen)
            (pos + result.1.tcplen) next more ∧
          pos + inseg.tcplen ≤ pos + result.1.tcplen + next.len

theorem adjustOoseq_spec
    (cut : Cut stream start pos inseg) (nonempty : 0 < inseg.tcplen)
    (queued : Queued stream start high (pos + 1) queue)
    (near : high ≤ pos + horizon) :
    ∃ result,
      adjustOoseq inseg queue = .ok result ∧
        Adjusted stream start high pos inseg result := by
  unfold adjustOoseq
  cases fin : inseg.fin with
  | true =>
      rw [if_pos rfl]
      exact
        ⟨_, rfl,
          { cut := cut
            nonempty := nonempty
            most := Nat.le_max_left _ _
            last := fun _ => rfl
            rest := trivial
            reaches := Or.inl (Nat.le_refl _) }⟩
  | false =>
      have plain := Cut.tcplen_of_not_fin fin
      have short := Cut.tcplen_le inseg
      have absorbed := absorb_spec cut (by simp [fin]) queued
        (Nat.le_succ pos) near
      simp only [Bool.false_eq_true, if_false]
      generalize absorb inseg queue = result at absorbed
      rcases result with ⟨seg, rest⟩
      have len : seg.len = inseg.len := absorbed.len
      have atLeast : inseg.tcplen ≤ seg.tcplen := absorbed.tcplen
      have atMost : seg.tcplen ≤ max inseg.tcplen (high - pos) :=
        absorbed.most
      cases rest with
      | nil =>
          exact
            ⟨_, rfl,
              { cut := absorbed.cut
                nonempty := Nat.lt_of_lt_of_le nonempty atLeast
                most := absorbed.most
                last := absorbed.last
                rest := trivial
                reaches := Or.inl (Nat.add_le_add_left atLeast pos) }⟩
      | cons next more =>
          rcases absorbed.rest with ⟨second, standing, later⟩
          have open_ : seg.fin = false := by
            cases ended : seg.fin with
            | false => rfl
            | true => exact nomatch absorbed.last ended
          have same := Cut.tcplen_of_not_fin open_
          have least := standing.low
          have limit := standing.high
          have nextLen := Cut.len_le_tcplen next
          have beyond := absorbed.beyond next more second rfl
            standing.cut.seqno (by omega) (by omega)
          have close : second ≤ pos + horizon := by omega
          have overlaps := overlaps_iff seg.tcplen absorbed.cut.seqno
            standing.cut.seqno close (Cut.tcplen_le seg) (by omega)
          simp only [trimToOoseq]
          by_cases into : second < pos + seg.tcplen
          · have distance :
                u16 (next.seqno - seg.seqno) = second - pos := by
              rw [standing.cut.seqno, absorbed.cut.seqno]
              exact u16_number (by omega) (by omega)
            have trimmed := absorbed.cut.trim open_
              (show second - pos ≤ seg.len by omega)
            have onward : pos + (second - pos) = second := by omega
            have exact_ :
                seg.seqno + u32 (seg.trim (second - pos)).tcplen =
                  next.seqno := by
              rw [trimmed.2.2, absorbed.cut.seqno, number_add, onward,
                standing.cut.seqno]
            rw [if_pos (overlaps.trans (decide_eq_true into)), distance,
              if_pos exact_]
            refine ⟨_, rfl, ?_⟩
            constructor
            · exact trimmed.1
            · rw [trimmed.2.2]
              omega
            · rw [trimmed.2.2]
              omega
            · intro ended
              exact absurd ended (by simp [Seg.trim, open_])
            · rw [trimmed.2.2, onward]
              exact
                ⟨second, { standing with low := Nat.le_refl _ }, later⟩
            · rw [trimmed.2.2, onward]
              exact
                Or.inr
                  ⟨next, more, rfl,
                    { standing with low := Nat.le_refl _ }, by omega⟩
          · rw [if_neg (by rw [overlaps]; simpa using into)]
            exact
              ⟨_, rfl,
                { cut := absorbed.cut
                  nonempty := Nat.lt_of_lt_of_le nonempty atLeast
                  most := absorbed.most
                  last := absorbed.last
                  rest :=
                    ⟨second,
                      { standing with low := Nat.le_of_not_lt into },
                      later⟩
                  reaches := Or.inl (Nat.add_le_add_left atLeast pos) }⟩

end Queue

end Nsproxy.Lwip.Reassembly
