import Nsproxy.Lib.Transition
import Nsproxy.Lwip.ReassemblyQueue
import Nsproxy.Lwip.ReassemblySequence

/-!
# A connection which receives a stream

The peer cuts its stream into segments as it likes, and the network loses,
repeats and reorders them; a segment on its way is only not older, and not
further ahead, than a quarter of the sequence numbers.  The application takes
what is delivered and credits it with `tcp_recved`.  The slow timer may drop
the queue at any time.  A careful peer keeps to the window; a careless one is
a part of the system too.
-/

namespace Nsproxy.Lwip.Reassembly

open Nsproxy.Lib.SerialNumber
open Nsproxy.Lib.Transition
open Nsproxy.Lwip.Opts

/-! ## The system -/

/-- What the peer sends, from which number, and `TF_WND_SCALE`. -/
structure Link where
  stream : List UInt8
  start : Seqno
  wndScale : Bool

/-- The window of a connection whose application is done with everything. -/
def Link.window (link : Link) : Nat := tcpWndMax link.wndScale

/-- A receiver, with everything which its application has got and credited. -/
structure Connection where
  pcb : Receiver
  received : Received
  /-- `TCP_EVENT_CLOSED` has happened. -/
  told : Bool
  credited : Nat

/-- A connection as the handshake leaves it. -/
def Link.fresh (link : Link) : Connection where
  pcb :=
    { rcvNxt := number link.start 0
      rcvWnd := link.window
      ooseq := []
      receives := true }
  received := nothing
  told := false
  credited := 0

inductive Event where
  /-- A segment comes in, and there may be no memory for a copy of it. -/
  | arrive (seg : Seg) (copied : Bool)
  /-- The application calls `tcp_recved`. -/
  | recved (len : Nat)
  /-- The end of the stream is passed to the application. -/
  | closed
  /-- `tcp_slowtmr` drops what has waited on the queue for too long. -/
  | dropOoseq

namespace Connection

/-- How many bytes the application has got. -/
def rcvd (connection : Connection) : Nat :=
  connection.received.data.length

/-- The sequence number which `TCP_EVENT_CLOSED` gives back. -/
def toldLen (connection : Connection) : Nat :=
  if connection.told then 1 else 0

/-- The right edge of the window. -/
def edge (connection : Connection) : Nat :=
  connection.rcvd + connection.received.finLen + connection.pcb.rcvWnd

/-- `tcp_input` passes on what `tcp_receive` has left. -/
def pass (connection : Connection) (result : Receiver × Received) :
    Connection :=
  { connection with
    pcb := result.1
    received :=
      { data := connection.received.data ++ result.2.data
        gotFin := connection.received.gotFin || result.2.gotFin } }

/-- `tcp_input` corrects the window for the FIN. -/
def close (window : Nat) (connection : Connection) : Connection :=
  { connection with
    pcb :=
      { connection.pcb with
        rcvWnd :=
          if connection.pcb.rcvWnd = window then
            connection.pcb.rcvWnd
          else
            connection.pcb.rcvWnd + 1 }
    told := true }

end Connection

/-- A segment of the peer which the network may deliver now. -/
structure Sent
    (link : Link) (connection : Connection) (seg : Seg) (pos : Nat) :
    Prop where
  cut : Cut link.stream link.start pos seg
  young : pos < connection.rcvd + horizon
  recent : connection.rcvd ≤ pos + horizon

def Link.enabled (link : Link) (connection : Connection) : Event → Prop
  | .arrive seg _ => ∃ pos, Sent link connection seg pos
  | .recved len =>
      connection.credited + len ≤ connection.rcvd ∧ len ≤ 0xffff
  | .closed =>
      connection.received.gotFin = true ∧ connection.told = false
  | .dropOoseq => True

def Link.step (link : Link) (connection : Connection) :
    Event → Except Assertion Connection
  | .arrive seg copied =>
      (tcpReceive connection.pcb seg copied).map connection.pass
  | .recved len =>
      .ok
        { connection with
          pcb := tcpRecved link.wndScale connection.pcb len
          credited := connection.credited + len }
  | .closed => .ok (connection.close link.window)
  | .dropOoseq =>
      .ok { connection with pcb := tcpFreeOoseq connection.pcb }

def Link.system (link : Link) : System Assertion Connection Event where
  initial connection := connection = link.fresh
  enabled := link.enabled
  step := link.step

/--
A segment which begins within the window goes beyond it by no more than the
slack.
-/
def Careful (link : Link) (slack : Nat) (connection : Connection) :
    Event → Prop
  | .arrive seg _ =>
      ∃ pos,
        Sent link connection seg pos ∧
          (pos < connection.edge →
            pos + seg.tcplen ≤ connection.edge + slack)
  | _ => True

/-- The system with a peer which keeps to the window. -/
def Link.careful (link : Link) : System Assertion Connection Event :=
  link.system.restrict (fun _ => True) (Careful link 0)

/-! ## What holds of every connection -/

/-- The slack is how far queued segments may go beyond the window. -/
structure Sound (link : Link) (slack : Nat) (connection : Connection) :
    Prop where
  fed :
    Fed link.stream link.start connection.edge [] connection.rcvd
      connection.pcb connection.received
  receives : connection.pcb.receives = !connection.received.gotFin
  closed : connection.received.gotFin = true → connection.pcb.ooseq = []
  queued :
    Queued link.stream link.start (connection.edge + slack)
      (connection.rcvd + 1) connection.pcb.ooseq
  credit : connection.credited ≤ connection.rcvd
  window :
    connection.edge =
      link.window + connection.credited + connection.toldLen
  told : connection.told = true → connection.received.gotFin = true

section Steps

variable {link : Link} {slack pos : Nat} {connection : Connection}
  {seg : Seg}

theorem window_pos (link : Link) : 0 < link.window := by
  unfold Link.window tcpWndMax
  cases link.wndScale <;> decide

theorem window_le (link : Link) : link.window ≤ 131072 := by
  unfold Link.window tcpWndMax
  cases link.wndScale <;> decide

theorem finLen_le (received : Received) : received.finLen ≤ 1 := by
  unfold Received.finLen
  split <;> omega

theorem finLen_of_not_fin {received : Received}
    (open_ : received.gotFin = false) : received.finLen = 0 := by
  simp [Received.finLen, open_]

theorem finLen_of_fin {received : Received}
    (got : received.gotFin = true) : received.finLen = 1 := by
  simp [Received.finLen, got]

theorem Connection.toldLen_le (connection : Connection) :
    connection.toldLen ≤ 1 := by
  unfold Connection.toldLen
  split <;> omega

theorem sound_fresh (link : Link) (slack : Nat) :
    Sound link slack link.fresh where
  fed :=
    { next := rfl
      edge := rfl
      data := rfl
      within := Nat.zero_le _
      ended := fun got => nomatch got }
  receives := rfl
  closed := fun _ => rfl
  queued := trivial
  credit := Nat.le_refl _
  window := by
    simp [Connection.edge, Connection.rcvd, Connection.toldLen,
      Received.finLen, Link.fresh, nothing]
  told := fun told => nomatch told

/-- The receiver never looks beyond the horizon. -/
theorem Sound.near (sound : Sound link slack connection)
    (few : slack ≤ 65535) :
    connection.edge + slack ≤ connection.rcvd + horizon ∧
      connection.pcb.rcvWnd ≤ 1048576 := by
  have wide := window_le link
  have credit := sound.credit
  have right := sound.window
  have one := connection.toldLen_le
  have edge : connection.edge =
    connection.rcvd + connection.received.finLen +
      connection.pcb.rcvWnd := rfl
  unfold horizon
  omega

theorem pass_nothing (connection : Connection) (pcb : Receiver) :
    connection.pass (pcb, nothing) = { connection with pcb := pcb } := by
  simp [Connection.pass, nothing]

/-- Nothing changes when the queue is replaced by another one. -/
theorem Sound.requeue (sound : Sound link slack connection)
    {ooseq : List Seg}
    (closed : connection.received.gotFin = true → ooseq = [])
    (queued :
      Queued link.stream link.start (connection.edge + slack)
        (connection.rcvd + 1) ooseq) :
    Sound link slack
      { connection with
        pcb := { connection.pcb with ooseq := ooseq } } :=
  { fed :=
      { next := sound.fed.next
        edge := sound.fed.edge
        data := sound.fed.data
        within := sound.fed.within
        ended := sound.fed.ended }
    receives := sound.receives
    closed := closed
    queued := queued
    credit := sound.credit
    window := sound.window
    told := sound.told }

theorem leaveOnFin_eq (result : Receiver × Received) :
    leaveOnFin result =
      ({ result.1 with
          receives := result.1.receives && !result.2.gotFin },
        result.2) := by
  unfold leaveOnFin
  cases result.2.gotFin <;> simp

/-- What an arrival makes of a connection. -/
structure Arrived
    (link : Link) (slack : Nat) (connection later : Connection)
    (seg : Seg) (pos : Nat) : Prop where
  sound : Sound link slack later
  edge : later.edge = connection.edge
  grows : connection.rcvd ≤ later.rcvd
  ended : connection.received.finLen ≤ later.received.finLen
  credited : later.credited = connection.credited
  told : later.told = connection.told
  reaches :
    connection.received.gotFin = false → pos ≤ connection.rcvd →
      min (pos + seg.tcplen) connection.edge ≤
        later.rcvd + later.received.finLen

/-- A segment may change nothing but the queue. -/
theorem Arrived.queueOnly (sound : Sound link slack connection)
    {ooseq : List Seg}
    (queued :
      Queued link.stream link.start (connection.edge + slack)
        (connection.rcvd + 1) ooseq)
    (closed : connection.received.gotFin = true → ooseq = [])
    (old :
      connection.received.gotFin = false → pos ≤ connection.rcvd →
        min (pos + seg.tcplen) connection.edge ≤ connection.rcvd) :
    Arrived link slack connection
      (connection.pass
        ({ connection.pcb with ooseq := ooseq }, nothing)) seg pos := by
  rw [pass_nothing]
  exact
    { sound := sound.requeue closed queued
      edge := rfl
      grows := Nat.le_refl _
      ended := Nat.le_refl _
      credited := rfl
      told := rfl
      reaches := fun open_ behind =>
        Nat.le_trans (old open_ behind) (Nat.le_add_right _ _) }

/-- What was in sequence is added to what the application has got. -/
theorem Sound.passed (sound : Sound link slack connection)
    (open_ : connection.received.gotFin = false) {later : Nat}
    {result : Receiver × Received}
    (dequeued :
      Dequeued link.stream link.start
        (connection.rcvd + connection.pcb.rcvWnd)
        (connection.edge + slack) connection.rcvd
        connection.received.data later result)
    (receives : result.1.receives = connection.pcb.receives) :
    Sound link slack (connection.pass (leaveOnFin result)) ∧
      (connection.pass (leaveOnFin result)).rcvd = later ∧
      (connection.pass (leaveOnFin result)).edge = connection.edge ∧
      (connection.pass (leaveOnFin result)).received.finLen =
        result.2.finLen := by
  have unended := finLen_of_not_fin open_
  have start : connection.edge =
      connection.rcvd + connection.pcb.rcvWnd := by
    simp [Connection.edge, unended]
  have length :
      (connection.pass (leaveOnFin result)).rcvd = later := by
    simp only [Connection.rcvd, Connection.pass, leaveOnFin_eq]
    rw [dequeued.fed.data, List.length_take]
    exact Nat.min_eq_left dequeued.fed.within
  have fin :
      (connection.pass (leaveOnFin result)).received.finLen =
        result.2.finLen := by
    simp [Connection.pass, leaveOnFin_eq, Received.finLen, open_]
  have edge :
      (connection.pass (leaveOnFin result)).edge = connection.edge := by
    have right := dequeued.fed.edge
    rw [Connection.edge, length, fin, start, ← right]
    simp [Connection.pass, leaveOnFin_eq]
  have got :
      (connection.pass (leaveOnFin result)).received.gotFin =
        result.2.gotFin := by
    simp [Connection.pass, leaveOnFin_eq, open_]
  refine ⟨?_, length, edge, fin⟩
  constructor
  · constructor
    · rw [length, fin, ← dequeued.fed.next]
      simp [Connection.pass, leaveOnFin_eq]
    · rfl
    · rw [List.nil_append, length, ← dequeued.fed.data]
      simp [Connection.pass, leaveOnFin_eq]
    · rw [length]
      exact dequeued.fed.within
    · rw [length, got]
      exact dequeued.fed.ended
  · rw [got]
    simp [Connection.pass, leaveOnFin_eq, receives, sound.receives, open_]
  · rw [got]
    simpa [Connection.pass, leaveOnFin_eq] using dequeued.closed
  · rw [edge, length]
    simpa [Connection.pass, leaveOnFin_eq] using dequeued.queued
  · have credit := sound.credit
    have onward := dequeued.onward
    rw [length]
    exact Nat.le_trans credit onward
  · rw [edge]
    exact sound.window
  · intro told
    exact absurd (sound.told told) (by simp [open_])

/-- A segment takes a connection on, or a queued one is beyond the window. -/
theorem arrive_spec (sound : Sound link slack connection)
    (few : slack ≤ 65535) (sent : Sent link connection seg pos)
    (bound :
      pos < connection.edge →
        pos + seg.tcplen ≤ connection.edge + slack)
    (copied : Bool) :
    (∃ result,
      tcpReceive connection.pcb seg copied = .ok result ∧
        Arrived link slack connection (connection.pass result) seg pos) ∨
    (∃ assertion,
      tcpReceive connection.pcb seg copied = .error assertion ∧
        0 < slack) := by
  have near := sound.near few
  unfold tcpReceive
  by_cases idle : 0 < seg.tcplen ∧ connection.pcb.receives = true
  · have open_ : connection.received.gotFin = false := by
      simpa [sound.receives] using idle.2
    have unended := finLen_of_not_fin open_
    have start : connection.edge =
        connection.rcvd + connection.pcb.rcvWnd := by
      simp [Connection.edge, unended]
    have next :
        connection.pcb.rcvNxt = number link.start connection.rcvd := by
      rw [sound.fed.next, unended, Nat.add_zero]
    rcases trimFront_eq sent.cut idle.1 next (Nat.le_of_lt sent.young)
      sent.recent with
      ⟨first, rest, trimmed, cut, nonempty, same, place⟩
    have close : first ≤ connection.rcvd + horizon ∧
        connection.rcvd ≤ first + horizon := by
      have young := sent.young
      have recent := sent.recent
      omega
    have inside :
        tcpSeqBetween rest.seqno connection.pcb.rcvNxt
            (connection.pcb.rcvNxt + u32 connection.pcb.rcvWnd - u32 1) =
          decide
            (connection.rcvd ≤ first ∧
              first < connection.rcvd + connection.pcb.rcvWnd) := by
      rw [cut.seqno, next]
      exact between_window close.1 close.2 near.2
    have here :
        connection.pcb.rcvNxt = rest.seqno ↔ connection.rcvd = first := by
      have apart := close
      unfold horizon at apart
      rw [cut.seqno, next]
      exact number_inj (by omega) (by omega)
    rw [if_pos idle, trimmed]
    simp only [inside]
    by_cases within :
        connection.rcvd ≤ first ∧
          first < connection.rcvd + connection.pcb.rcvWnd
    · rw [if_pos (decide_eq_true within)]
      by_cases first_ : connection.rcvd = first
      · rw [if_pos (here.mpr first_)]
        subst first_
        rcases receiveInSequence_spec next
          (by simpa using sound.fed.data) sound.fed.within (by omega) cut
          nonempty sound.queued near.1 with
          ⟨later, result, received, dequeued, kept, reaches⟩ |
          ⟨assertion, failed, beyond⟩
        · left
          have passed := sound.passed open_ dequeued kept
          have onward := dequeued.onward
          rw [received]
          refine ⟨_, rfl, ?_⟩
          exact
            { sound := passed.1
              edge := passed.2.2.1
              grows := by omega
              ended := by omega
              credited := rfl
              told := rfl
              reaches := fun _ behind => by omega }
        · right
          rw [failed]
          exact ⟨assertion, rfl, by omega⟩
      · rw [if_neg (fun equal => first_ (here.mp equal))]
        left
        have ahead : first = pos := by omega
        subst ahead
        rcases receiveOutOfSequence_spec next near.2 cut nonempty
          (by omega) within.2 (by omega) sound.queued near.1 copied with
          ⟨ooseq, received, queued⟩
        rw [received]
        refine ⟨_, rfl, Arrived.queueOnly sound queued ?_ ?_⟩
        · exact fun got => by simp [open_] at got
        · omega
    · rw [if_neg (by simpa using within)]
      left
      exact
        ⟨_, rfl,
          Arrived.queueOnly sound sound.queued sound.closed
            (fun _ _ => by omega)⟩
  · rw [if_neg idle]
    left
    refine
      ⟨_, rfl, Arrived.queueOnly sound sound.queued sound.closed ?_⟩
    intro open_ behind
    have empty : seg.tcplen = 0 := by
      by_contra filled
      exact idle ⟨by omega, by simp [sound.receives, open_]⟩
    omega

/-- What the application credits opens the window. -/
theorem recved_spec (sound : Sound link slack connection) {len : Nat}
    (covered : connection.credited + len ≤ connection.rcvd) :
    Sound link slack
      { connection with
        pcb := tcpRecved link.wndScale connection.pcb len
        credited := connection.credited + len } := by
  have told : connection.toldLen ≤ connection.received.finLen := by
    unfold Connection.toldLen
    split
    · next told => exact Nat.le_of_eq (finLen_of_fin (sound.told told)).symm
    · exact Nat.zero_le _
  have right := sound.window
  have edge : connection.edge =
    connection.rcvd + connection.received.finLen +
      connection.pcb.rcvWnd := rfl
  have open_ :
      tcpRecved link.wndScale connection.pcb len =
        { connection.pcb with
          rcvWnd := connection.pcb.rcvWnd + len } := by
    rw [tcpRecved, Nat.min_eq_left]
    have most : connection.pcb.rcvWnd + len ≤ link.window := by omega
    exact most
  have moved :
      connection.rcvd + connection.received.finLen +
          (connection.pcb.rcvWnd + len) =
        connection.edge + len := by
    omega
  rw [open_]
  constructor
  · exact
      { next := sound.fed.next
        edge := rfl
        data := sound.fed.data
        within := sound.fed.within
        ended := sound.fed.ended }
  · exact sound.receives
  · exact sound.closed
  · exact
      sound.queued.higher
        (show connection.edge + slack ≤
            connection.rcvd + connection.received.finLen +
              (connection.pcb.rcvWnd + len) + slack by omega)
  · exact covered
  · have later :
        connection.rcvd + connection.received.finLen +
            (connection.pcb.rcvWnd + len) =
          link.window + (connection.credited + len) +
            connection.toldLen := by
      omega
    exact later
  · exact sound.told

/-- The sequence number of the FIN is given back. -/
theorem close_spec (sound : Sound link slack connection)
    (got : connection.received.gotFin = true)
    (untold : connection.told = false) :
    Sound link slack (connection.close link.window) := by
  have one := finLen_of_fin got
  have zero : connection.toldLen = 0 := by
    simp [Connection.toldLen, untold]
  have right := sound.window
  have credit := sound.credit
  have edge : connection.edge =
    connection.rcvd + connection.received.finLen +
      connection.pcb.rcvWnd := rfl
  have used : connection.pcb.rcvWnd ≠ link.window := by omega
  have closed :
      connection.close link.window =
        { connection with
          pcb :=
            { connection.pcb with
              rcvWnd := connection.pcb.rcvWnd + 1 }
          told := true } := by
    simp [Connection.close, used]
  rw [closed]
  constructor
  · exact
      { next := sound.fed.next
        edge := rfl
        data := sound.fed.data
        within := sound.fed.within
        ended := sound.fed.ended }
  · exact sound.receives
  · exact sound.closed
  · simp only [sound.closed got]
    trivial
  · exact sound.credit
  · have later :
        connection.rcvd + connection.received.finLen +
            (connection.pcb.rcvWnd + 1) =
          link.window + connection.credited + 1 := by
      omega
    exact later
  · exact fun _ => got

/-- A segment on its way has one position. -/
theorem Sent.unique {first second : Nat}
    (one : Sent link connection seg first)
    (other : Sent link connection seg second) : first = second := by
  have numbers := one.cut.seqno.symm.trans other.cut.seqno
  have young := one.young
  have recent := one.recent
  have young' := other.young
  have recent' := other.recent
  unfold horizon at young recent young' recent'
  exact (number_inj (by omega) (by omega)).mp numbers

end Steps

/-! ## Every event -/

/-- What is still to be delivered, credited and told. -/
def Connection.remaining (link : Link) (connection : Connection) : Nat :=
  2 * (link.stream.length + 1 -
      (connection.rcvd + connection.received.finLen)) +
    (connection.rcvd - connection.credited) + (1 - connection.toldLen)

/--
An event which brings the transfer on: there is room for the next byte and
the segment has it, or the application takes something.
-/
def Useful (link : Link) (connection : Connection) : Event → Prop
  | .arrive seg _ =>
      connection.received.gotFin = false ∧ 0 < connection.pcb.rcvWnd ∧
        ∃ pos,
          Sent link connection seg pos ∧ pos ≤ connection.rcvd ∧
            connection.rcvd < pos + seg.tcplen
  | .recved len => 0 < len
  | .closed => True
  | .dropOoseq => False

/-- What an event makes of a connection. -/
structure Advanced
    (link : Link) (slack : Nat) (connection : Connection) (event : Event)
    (later : Connection) : Prop where
  sound : Sound link slack later
  remaining : later.remaining link ≤ connection.remaining link
  useful :
    Useful link connection event →
      later.remaining link < connection.remaining link

section Events

variable {link : Link} {slack : Nat} {connection : Connection}
  {event : Event}

theorem careful_of_enabled (permitted : link.enabled connection event) :
    Careful link 65535 connection event := by
  cases event with
  | arrive seg copied =>
      rcases permitted with ⟨pos, sent⟩
      have bound := Cut.tcplen_le seg
      exact ⟨pos, sent, fun _ => by omega⟩
  | recved len => trivial
  | closed => trivial
  | dropOoseq => trivial

theorem Sound.advance (sound : Sound link slack connection)
    (few : slack ≤ 65535) (permitted : link.enabled connection event)
    (careful : Careful link slack connection event) :
    (∃ later,
      link.step connection event = .ok later ∧
        Advanced link slack connection event later) ∨
    (∃ assertion,
      link.step connection event = .error assertion ∧ 0 < slack) := by
  have within := sound.fed.within
  cases event with
  | arrive seg copied =>
      rcases careful with ⟨pos, sent, bound⟩
      rcases arrive_spec sound few sent bound copied with
        ⟨result, received, arrived⟩ | ⟨assertion, failed, more⟩
      · left
        have grows := arrived.grows
        have ended := arrived.ended
        have credited := arrived.credited
        have told : (connection.pass result).toldLen =
            connection.toldLen := rfl
        have later := arrived.sound.fed.within
        have one := finLen_le (connection.pass result).received
        have credit := sound.credit
        refine ⟨_, by simp only [Link.step, received]; rfl, ?_⟩
        constructor
        · exact arrived.sound
        · unfold Connection.remaining
          omega
        · rintro ⟨open_, wide, other, again, behind, has⟩
          have same := sent.unique again
          subst same
          have unended := finLen_of_not_fin open_
          have edge : connection.edge =
            connection.rcvd + connection.received.finLen +
              connection.pcb.rcvWnd := rfl
          have reaches := arrived.reaches open_ behind
          unfold Connection.remaining
          omega
      · right
        exact
          ⟨assertion, by simp only [Link.step, failed]; rfl, more⟩
  | recved len =>
      left
      have covered := permitted.1
      refine ⟨_, rfl, recved_spec sound covered, ?_, ?_⟩
      · simp only [Connection.remaining, Connection.rcvd,
          Connection.toldLen] at covered ⊢
        omega
      · intro useful
        have more : 0 < len := useful
        simp only [Connection.remaining, Connection.rcvd,
          Connection.toldLen] at covered ⊢
        omega
  | closed =>
      left
      refine ⟨_, rfl, close_spec sound permitted.1 permitted.2, ?_, ?_⟩
      · simp [Connection.remaining, Connection.rcvd, Connection.toldLen,
          Connection.close]
      · intro _
        simp [Connection.remaining, Connection.rcvd, Connection.toldLen,
          Connection.close, permitted.2]
  | dropOoseq =>
      left
      exact
        ⟨_, rfl, sound.requeue (fun _ => rfl) trivial, Nat.le_refl _,
          False.elim⟩

theorem sound_of_reachable
    (reachable : link.system.Reachable connection) :
    Sound link 65535 connection := by
  apply reachable.invariant
  · rintro source rfl
    exact sound_fresh link 65535
  · intro source event target sound permitted handled
    rcases sound.advance (Nat.le_refl _) permitted
      (careful_of_enabled permitted) with
      ⟨later, stepped, advanced⟩ | ⟨assertion, failed, _⟩
    · cases stepped.symm.trans handled
      exact advanced.sound
    · cases failed.symm.trans handled

theorem sound_of_careful
    (reachable : link.careful.Reachable connection) :
    Sound link 0 connection := by
  apply reachable.invariant
  · rintro source ⟨rfl, _⟩
    exact sound_fresh link 0
  · intro source event target sound permitted handled
    rcases sound.advance (Nat.zero_le _) permitted.1 permitted.2 with
      ⟨later, stepped, advanced⟩ | ⟨assertion, failed, _⟩
    · cases stepped.symm.trans handled
      exact advanced.sound
    · cases failed.symm.trans handled

/-- No event of a careful peer fails. -/
theorem Sound.handles (sound : Sound link 0 connection)
    (permitted : link.careful.enabled connection event) :
    ∃ later,
      link.careful.step connection event = .ok later ∧
        Advanced link 0 connection event later := by
  rcases sound.advance (Nat.zero_le _) permitted.1 permitted.2 with
    advanced | ⟨_, _, positive⟩
  · exact advanced
  · exact absurd positive (Nat.lt_irrefl 0)

/-! ## The end of a transfer -/

/-- Everything was delivered, credited and told. -/
def Connection.Finished (link : Link) (connection : Connection) : Prop :=
  connection.received.data = link.stream ∧
    connection.received.gotFin = true ∧
      connection.credited = connection.rcvd ∧ connection.told = true

/-- The byte which the receiver waits for, or the FIN. -/
def Link.wanted (link : Link) (pos : Nat) : Seg where
  seqno := number link.start pos
  data := (link.stream.drop pos).take 1
  fin := decide (link.stream.length ≤ pos)
  short :=
    Nat.lt_of_le_of_lt (List.length_take_le 1 _) (by decide)

theorem wanted_tcplen (link : Link) (pos : Nat) :
    (link.wanted pos).tcplen = 1 := by
  simp only [Seg.tcplen, Seg.len, Link.wanted, List.length_take,
    List.length_drop, decide_eq_true_eq]
  split <;> omega

theorem wanted_sent (sound : Sound link slack connection) :
    Sent link connection (link.wanted connection.rcvd)
      connection.rcvd := by
  constructor
  · refine ⟨rfl, sound.fed.within, List.take_prefix _ _, ?_⟩
    intro fin
    have excess : link.stream.length ≤ connection.rcvd :=
      of_decide_eq_true fin
    simp [Link.wanted, List.drop_of_length_le excess]
  · exact Nat.lt_add_of_pos_right (by decide)
  · exact Nat.le_add_right _ _

/-- A transfer which is not finished can be brought on. -/
theorem Sound.useful_enabled (sound : Sound link 0 connection)
    (unfinished : ¬ connection.Finished link) :
    ∃ event,
      link.careful.enabled connection event ∧
        Useful link connection event := by
  have credit := sound.credit
  have right := sound.window
  have edge : connection.edge =
    connection.rcvd + connection.received.finLen +
      connection.pcb.rcvWnd := rfl
  by_cases behind : connection.credited < connection.rcvd
  · exact ⟨.recved 1, ⟨⟨behind, by decide⟩, trivial⟩, Nat.one_pos⟩
  · have caught : connection.credited = connection.rcvd := by omega
    cases got : connection.received.gotFin with
    | true =>
        cases told : connection.told with
        | true =>
            refine absurd ⟨?_, got, caught, told⟩ unfinished
            have data := sound.fed.data
            rw [sound.fed.ended got, List.nil_append] at data
            rw [data, List.take_length]
        | false => exact ⟨.closed, ⟨⟨got, told⟩, trivial⟩, trivial⟩
    | false =>
        have unended := finLen_of_not_fin got
        have wide := window_pos link
        have sent := wanted_sent sound
        have one := wanted_tcplen link connection.rcvd
        refine
          ⟨.arrive (link.wanted connection.rcvd) true,
            ⟨⟨_, sent⟩, _, sent, fun _ => by omega⟩, got, by omega,
            _, sent, Nat.le_refl _, by omega⟩

end Events

/-! ## Results -/

/-- A stream whose numbers wrap. -/
def sampleLink : Link where
  stream := [1, 2, 3]
  start := 4294967294
  wndScale := true

/-- The last two bytes, with the FIN. -/
def sampleLater : Seg where
  seqno := 4294967295
  data := [2, 3]
  fin := true
  short := of_decide_eq_true rfl

/-- The first two bytes. -/
def sampleFirst : Seg where
  seqno := 4294967294
  data := [1, 2]
  fin := false
  short := of_decide_eq_true rfl

/-- The later bytes have come first. -/
def sampleWaiting : Connection :=
  { sampleLink.fresh with
    pcb := { sampleLink.fresh.pcb with ooseq := [sampleLater] } }

theorem sampleLater_sent :
    Sent sampleLink sampleLink.fresh sampleLater 1 :=
  ⟨⟨by decide, by decide, by decide, fun _ => rfl⟩, by decide, by decide⟩

theorem sampleFirst_sent :
    Sent sampleLink sampleWaiting sampleFirst 0 :=
  ⟨⟨by decide, by decide, by decide, fun fin => nomatch fin⟩, by decide,
    by decide⟩

theorem sampleLater_permitted :
    sampleLink.careful.enabled sampleLink.fresh
      (.arrive sampleLater true) :=
  ⟨⟨1, sampleLater_sent⟩, 1, sampleLater_sent, fun _ => by decide⟩

theorem sampleWaiting_reachable :
    sampleLink.careful.Reachable sampleWaiting :=
  .next (.start ⟨rfl, trivial⟩) sampleLater_permitted rfl

theorem sampleFirst_permitted :
    sampleLink.careful.enabled sampleWaiting (.arrive sampleFirst true) :=
  ⟨⟨0, sampleFirst_sent⟩, 0, sampleFirst_sent, fun _ => by decide⟩

/--
Whatever the network and the peer do, the application reads a front of the
stream, and the end of the stream only behind all of it; `rcv_nxt` and the
window account for what it has read and credited, and what waits on the queue
follows behind a gap, in order and without overlap.
-/
theorem application_reads_stream
    (link : Link) {connection : Connection}
    (reachable : link.system.Reachable connection) :
    connection.received.data <+: link.stream ∧
      (connection.received.gotFin = true →
        connection.received.data = link.stream) ∧
      connection.pcb.rcvNxt =
        number link.start
          (connection.rcvd + connection.received.finLen) ∧
      connection.pcb.rcvWnd + (connection.rcvd - connection.credited) +
          connection.received.finLen =
        link.window + connection.toldLen ∧
      Queued link.stream link.start (connection.edge + 65535)
        (connection.rcvd + 1) connection.pcb.ooseq := by
  have sound := sound_of_reachable reachable
  have data := sound.fed.data
  have credit := sound.credit
  have right := sound.window
  rw [List.nil_append] at data
  refine ⟨?_, ?_, sound.fed.next, ?_, sound.queued⟩
  · rw [data]
    exact List.take_prefix _ _
  · intro got
    rw [data, sound.fed.ended got, List.take_length]
  · unfold Connection.edge at right
    omega

theorem application_reads_stream_sample :
    sampleWaiting.received.data <+: sampleLink.stream ∧
      (sampleWaiting.received.gotFin = true →
        sampleWaiting.received.data = sampleLink.stream) ∧
      sampleWaiting.pcb.rcvNxt =
        number sampleLink.start
          (sampleWaiting.rcvd + sampleWaiting.received.finLen) ∧
      sampleWaiting.pcb.rcvWnd +
          (sampleWaiting.rcvd - sampleWaiting.credited) +
          sampleWaiting.received.finLen =
        sampleLink.window + sampleWaiting.toldLen ∧
      Queued sampleLink.stream sampleLink.start
        (sampleWaiting.edge + 65535) (sampleWaiting.rcvd + 1)
        sampleWaiting.pcb.ooseq :=
  application_reads_stream sampleLink sampleWaiting_reachable.of_restrict

/--
No assertion ever fails while the peer keeps to the window, in whatever order
its segments come in.
-/
theorem careful_peer_never_faults
    (link : Link) {connection : Connection} {event : Event}
    (reachable : link.careful.Reachable connection)
    (permitted : link.careful.enabled connection event) :
    ∃ later,
      link.careful.step connection event = .ok later ∧
        Queued link.stream link.start later.edge (later.rcvd + 1)
          later.pcb.ooseq := by
  rcases (sound_of_careful reachable).handles permitted with
    ⟨later, stepped, advanced⟩
  exact ⟨later, stepped, advanced.sound.queued⟩

theorem careful_peer_never_faults_sample :
    ∃ later,
      sampleLink.careful.step sampleWaiting (.arrive sampleFirst true) =
          .ok later ∧
        Queued sampleLink.stream sampleLink.start later.edge
          (later.rcvd + 1) later.pcb.ooseq :=
  careful_peer_never_faults sampleLink sampleWaiting_reachable
    sampleFirst_permitted

/-- One segment delivers what was waiting for it. -/
example :
    (sampleLink.step sampleWaiting (.arrive sampleFirst true)).map
        Connection.received =
      .ok { data := [1, 2, 3], gotFin := true } := rfl

/--
A transfer is finished after a bounded number of useful events, whatever
happens between them; and until then some useful event can happen.
-/
theorem transfer_completes
    (link : Link) {count : Nat} {connection : Connection}
    (run :
      link.careful.Counted (Useful link) link.fresh count connection) :
    count ≤ 2 * link.stream.length + 3 ∧
      (connection.Finished link ∨
        ∃ event later,
          link.careful.enabled connection event ∧
            link.careful.step connection event = .ok later ∧
            Useful link connection event) := by
  have bounded :=
    run.bounded (Sound link 0) (Connection.remaining link)
      (by
        intro source event target sound permitted handled
        rcases sound.handles permitted with ⟨later, stepped, advanced⟩
        cases stepped.symm.trans handled
        exact ⟨advanced.sound, advanced.remaining, advanced.useful⟩)
      (sound_fresh link 0)
  have first : link.fresh.remaining link =
      2 * link.stream.length + 3 := by
    simp [Connection.remaining, Connection.rcvd, Connection.toldLen,
      Received.finLen, Link.fresh, nothing]
    omega
  refine ⟨by omega, ?_⟩
  by_cases finished : connection.Finished link
  · exact Or.inl finished
  · right
    rcases bounded.1.useful_enabled finished with
      ⟨event, permitted, useful⟩
    rcases bounded.1.handles permitted with ⟨later, stepped, _⟩
    exact ⟨event, later, permitted, stepped, useful⟩

/-- Both segments have come in. -/
def sampleDelivered : Connection where
  pcb :=
    { rcvNxt := 2
      rcvWnd := sampleLink.window - 4
      ooseq := []
      receives := false }
  received := { data := [1, 2, 3], gotFin := true }
  told := false
  credited := 0

theorem transfer_completes_sample :
    1 ≤ 2 * sampleLink.stream.length + 3 ∧
      (sampleDelivered.Finished sampleLink ∨
        ∃ event later,
          sampleLink.careful.enabled sampleDelivered event ∧
            sampleLink.careful.step sampleDelivered event = .ok later ∧
            Useful sampleLink sampleDelivered event) :=
  transfer_completes sampleLink
    (.useful (.next .start sampleLater_permitted rfl)
      sampleFirst_permitted rfl
      ⟨rfl, by decide, 0, sampleFirst_sent, Nat.le_refl _, by decide⟩)

end Nsproxy.Lwip.Reassembly
