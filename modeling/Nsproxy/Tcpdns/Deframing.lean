import Mathlib.Tactic.Common
import Nsproxy.Lib.Transition
import Nsproxy.Tcpdns.Answers
import Nsproxy.Tcpdns.Workers

/-!
# The frame of an answer

Over TCP a message has its length in front of it.  A worker is done as soon as
its buffer holds the whole message, and `tcpdns_recv` hands over all that the
buffer holds behind the length.  The two agree when the last read of the
worker ended with the message.

`Tracks` follows one worker through a run: it waits for the rest of the
message, it is done, its answer was returned, or it was destroyed.  The turns
of other workers leave it alone.
-/

namespace Nsproxy.Tcpdns.Deframing

open Nsproxy.Conf
open Nsproxy.Lib.Linked
open Nsproxy.Lib.Transition
open Nsproxy.Lwip.Opts
open Nsproxy.Skutils
open Nsproxy.Handshake.Socket
open Nsproxy.Tcpdns.Answers
open Nsproxy.Tcpdns.Workers

/-! ## Frames -/

/-- A message with its length in front of it. -/
def framed (message : List UInt8) : List UInt8 :=
  UInt8.ofNat (message.length / 256) ::
    UInt8.ofNat (message.length % 256) :: message

theorem length_framed (message : List UInt8) :
    (framed message).length = message.length + 2 :=
  rfl

/-- The length is there with the first two bytes of the stream. -/
theorem messageSize_of_isPrefix
    {message extra got : List UInt8} (short : message.length < 2 ^ 16)
    (front : got <+: framed message ++ extra) (two : 2 ≤ got.length) :
    messageSize got = message.length := by
  have high : message.length / 256 < 2 ^ 8 := by omega
  have low : message.length % 256 < 2 ^ 8 := Nat.mod_lt _ (by decide)
  match got, two with
  | first :: second :: rest, _ =>
      rcases front with ⟨back, whole⟩
      have heads := List.cons.inj whole
      have seconds := List.cons.inj heads.2
      rw [messageSize, heads.1, seconds.1, UInt8.toNat_ofNat_of_lt' high,
        UInt8.toNat_ofNat_of_lt' low]
      exact Nat.div_add_mod' _ _

theorem complete_iff
    {message extra got : List UInt8} (some_byte : 1 ≤ message.length)
    (short : message.length < 2 ^ 16)
    (front : got <+: framed message ++ extra) :
    Complete got ↔ message.length + 2 ≤ got.length := by
  constructor
  · rintro ⟨long, complete⟩
    rwa [messageSize_of_isPrefix short front (Nat.le_of_lt long)]
      at complete
  · intro complete
    have long : 2 < got.length := by omega
    refine ⟨long, ?_⟩
    rwa [messageSize_of_isPrefix short front (Nat.le_of_lt long)]

/-! ## What the journal tells of one worker -/

/-- The reads of a worker. -/
def readsOf (id : Nat) : List Entry → List (List UInt8)
  | [] => []
  | .read other bytes :: rest =>
      if other = id then bytes :: readsOf id rest else readsOf id rest
  | _ :: rest => readsOf id rest

/-- The answers of a worker, with the sizes of the buffers. -/
def answersOf (id : Nat) : List Entry → List (Nat × List UInt8)
  | [] => []
  | .returned other size answer :: rest =>
      if other = id then (size, answer) :: answersOf id rest
      else answersOf id rest
  | _ :: rest => answersOf id rest

theorem readsOf_append (id : Nat) (front back : List Entry) :
    readsOf id (front ++ back) = readsOf id front ++ readsOf id back := by
  induction front with
  | nil => rfl
  | cons entry rest induction =>
      cases entry with
      | read other bytes =>
          simp only [List.cons_append, readsOf, induction]
          split
          · rfl
          · rfl
      | finished other => exact induction
      | returned other size answer => exact induction

theorem answersOf_append (id : Nat) (front back : List Entry) :
    answersOf id (front ++ back) =
      answersOf id front ++ answersOf id back := by
  induction front with
  | nil => rfl
  | cons entry rest induction =>
      cases entry with
      | returned other size answer =>
          simp only [List.cons_append, answersOf, induction]
          split
          · rfl
          · rfl
      | finished other => exact induction
      | read other bytes => exact induction

/-- An answer is not a read. -/
theorem readsOf_returned
    (id found size : Nat) (answer : List UInt8) (journal : List Entry) :
    readsOf id (journal ++ [.returned found size answer]) =
      readsOf id journal := by
  rw [readsOf_append]
  exact List.append_nil _

theorem answersOf_returned
    (id size : Nat) (answer : List UInt8) (journal : List Entry) :
    answersOf id (journal ++ [.returned id size answer]) =
      answersOf id journal ++ [(size, answer)] := by
  rw [answersOf_append]
  simp [answersOf]

theorem answersOf_returned_other
    {id found : Nat} (other : found ≠ id) (size : Nat)
    (answer : List UInt8) (journal : List Entry) :
    answersOf id (journal ++ [.returned found size answer]) =
      answersOf id journal := by
  rw [answersOf_append]
  simp [answersOf, other]

theorem mem_answersOf
    {id size : Nat} {answer : List UInt8} {journal : List Entry} :
    .returned id size answer ∈ journal ↔
      (size, answer) ∈ answersOf id journal := by
  induction journal with
  | nil => simp [answersOf]
  | cons entry rest induction =>
      cases entry with
      | returned other otherSize otherAnswer =>
          by_cases same : other = id
          · simp [answersOf, same, induction]
          · simp [answersOf, same, induction, Ne.symm same]
      | finished other => simp [answersOf, induction]
      | read other bytes => simp [answersOf, induction]

/-- A worker without answers was not returned. -/
theorem answersOf_eq_nil
    {id : Nat} {journal : List Entry}
    (never : id ∉ returnedIds journal) :
    answersOf id journal = [] := by
  induction journal with
  | nil => rfl
  | cons entry rest induction =>
      cases entry with
      | returned other size answer =>
          rw [returnedIds, List.mem_cons, not_or] at never
          rw [answersOf, if_neg (Ne.symm never.1)]
          exact induction never.2
      | finished other => exact induction never
      | read other bytes => exact induction never

/-- The entries of an event of a worker. -/
theorem of_eventEntries
    (id : Nat) (event : EventMask) (calls : WorkerCalls)
    {connection : Connection} {before : Master} (after : Master)
    {worker : Worker}
    (found : before.workers.data connection.userp = some worker) :
    readsOf id (eventEntries event calls connection before after) =
        readsOf id (Workers.readEntries event calls connection worker) ∧
      answersOf id (eventEntries event calls connection before after) =
        [] := by
  have silent :
      answersOf id
        (Workers.readEntries event calls connection worker) = [] := by
    unfold Workers.readEntries
    split
    · split
      · rfl
      · rfl
    · rfl
  simp only [eventEntries, found]
  rw [readsOf_append, answersOf_append, silent]
  split
  · exact ⟨List.append_nil _, rfl⟩
  · exact ⟨List.append_nil _, rfl⟩

theorem readsOf_other
    {id : Nat} (event : EventMask) (calls : WorkerCalls)
    {connection : Connection} (worker : Worker)
    (other : connection.userp ≠ id) :
    readsOf id (Workers.readEntries event calls connection worker) =
      [] := by
  unfold Workers.readEntries
  split
  · split
    · simp [readsOf, other]
    · rfl
  · rfl

/-! ## One worker in a run -/

/--
The reads of a worker whose message is complete: it was not complete before
the last one.
-/
structure Whole
    (message stream : List UInt8) (reads : List (List UInt8)) :
    Prop where
  front : reads.flatten <+: stream
  long : message.length + 2 ≤ reads.flatten.length
  last :
    ∃ before bytes,
      reads = before ++ [bytes] ∧
        before.flatten.length < message.length + 2

/-- Where the worker is. -/
inductive Tracks
    (message stream : List UInt8) (id conn : Nat) (session : Session) :
    Prop where
  | waits (connection : Connection)
      (worker :
        session.master.workers.data id =
          some
            { proxy := some conn
              buffer := (readsOf id session.journal).flatten
              done := false })
      (present : session.master.connections conn = some connection)
      (user : connection.userp = id)
      (forwarding : connection.proxy.phase = .forwarding)
      (interest : connection.proxy.events = epollin)
      (read :
        stream =
          (readsOf id session.journal).flatten ++ connection.unread)
      (incomplete :
        (readsOf id session.journal).flatten.length <
          message.length + 2)
      (never : answersOf id session.journal = [])
  | done
      (worker :
        session.master.workers.data id =
          some
            { proxy := none
              buffer := (readsOf id session.journal).flatten
              done := true })
      (whole : Whole message stream (readsOf id session.journal))
      (never : answersOf id session.journal = [])
  | returned (size : Nat)
      (worker : session.master.workers.data id = none)
      (whole : Whole message stream (readsOf id session.journal))
      (once :
        answersOf id session.journal =
          [(size,
            ((readsOf id session.journal).flatten.drop 2).take size)])
  | dropped
      (worker : session.master.workers.data id = none)
      (never : answersOf id session.journal = [])

/-- The kernel tells of `EPOLLOUT` only when it was asked for. -/
def Interested (session : Session) : Turn → Prop
  | .event conn event _ =>
      match session.master.connections conn with
      | none => True
      | some connection =>
          connection.proxy.phase = .forwarding →
            event.meets epollout = true →
            connection.proxy.events.meets epollout = true
  | _ => True

section Steps

variable {message extra : List UInt8} {id conn : Nat}
  {session after : Session} {ids : List Nat}

/-- A turn which does not touch the worker. -/
theorem Tracks.frame
    {stream : List UInt8}
    (tracks : Tracks message stream id conn session)
    (worker :
      after.master.workers.data id = session.master.workers.data id)
    (connections :
      ∀ connection, session.master.connections conn = some connection →
        connection.userp = id → connection.proxy.phase = .forwarding →
        after.master.connections conn = some connection)
    (reads : readsOf id after.journal = readsOf id session.journal)
    (answers : answersOf id after.journal = answersOf id session.journal) :
    Tracks message stream id conn after := by
  cases tracks with
  | waits connection found present user forwarding interest read
      incomplete never =>
      refine .waits connection ?_ ?_ user forwarding interest ?_ ?_ ?_
      · rw [worker, reads]
        exact found
      · exact connections connection present user forwarding
      · rw [reads]
        exact read
      · rw [reads]
        exact incomplete
      · rw [answers]
        exact never
  | done found whole never =>
      refine .done ?_ ?_ ?_
      · rw [worker, reads]
        exact found
      · rw [reads]
        exact whole
      · rw [answers]
        exact never
  | returned size found whole once =>
      refine .returned size ?_ ?_ ?_
      · rw [worker]
        exact found
      · rw [reads]
        exact whole
      · rw [answers, reads]
        exact once
  | dropped found never =>
      refine .dropped ?_ ?_
      · rw [worker]
        exact found
      · rw [answers]
        exact never

/-- What was read is the front of what was unread. -/
theorem append_of_arrived
    {got : List UInt8} {connection : Connection} {worker : Worker}
    {calls : WorkerCalls} {byte : UInt8} {more : List UInt8}
    (arrived :
      workerRecv calls connection worker = .data (byte :: more)) :
    got ++ connection.unread =
      got ++ byte :: more ++ connection.unread.drop (more.length + 1) := by
  have front : byte :: more <+: connection.unread := by
    simp only [workerRecv, Proxy.recv] at arrived
    split at arrived
    · cases arrived
    · cases arrived
    · cases arrival : calls.arrival with
      | waits =>
          rw [arrival] at arrived
          cases arrived
      | fails errno =>
          rw [arrival] at arrived
          cases arrived
      | shows count =>
          rw [arrival] at arrived
          rw [← RecvAnswer.data.inj arrived]
          exact (List.take_prefix _ _).trans (List.take_prefix _ _)
  rcases front with ⟨rest, whole⟩
  have dropped : connection.unread.drop (more.length + 1) = rest := by
    rw [← whole]
    exact List.drop_left' rfl
  rw [dropped, List.append_assoc, whole]

/-- A read is written down. -/
theorem read_reads
    (journal : List Entry) {connection : Connection} {worker : Worker}
    {calls : WorkerCalls} {event : EventMask} {byte : UInt8} {more : List UInt8}
    {entries : List Entry} (user : connection.userp = id)
    (input : event.meets epollerr = false ∧ event.meets epollin = true)
    (arrived :
      workerRecv calls connection worker = .data (byte :: more))
    (reads :
      readsOf id entries =
        readsOf id
          (Workers.readEntries event calls connection worker)) :
    (readsOf id (journal ++ entries)).flatten =
        (readsOf id journal).flatten ++ byte :: more ∧
      readsOf id (journal ++ entries) =
        readsOf id journal ++ [byte :: more] := by
  have notErr : ¬ event.meets epollerr = true := by
    rw [input.1]
    exact Bool.false_ne_true
  have entry :
      Workers.readEntries event calls connection worker =
        [.read id (byte :: more)] := by
    unfold Workers.readEntries
    rw [if_pos ⟨input.2, notErr⟩, arrived, user]
  have split :
      readsOf id (journal ++ entries) =
        readsOf id journal ++ [byte :: more] := by
    rw [readsOf_append, reads, entry]
    simp [readsOf]
  refine ⟨?_, split⟩
  rw [split, List.flatten_append]
  simp

/-- An event of the worker, while it waits. -/
theorem Tracks.tells
    (some_byte : 1 ≤ message.length) (short : message.length < 2 ^ 16)
    {connection : Connection} {worker : Worker} {calls : WorkerCalls}
    {event : EventMask} {next : Master}
    (pair : Pair session.master ids id worker conn connection)
    (user : connection.userp = id)
    (forwarding : connection.proxy.phase = .forwarding)
    (interest : connection.proxy.events = epollin)
    (own :
      worker =
        { proxy := some conn
          buffer := (readsOf id session.journal).flatten
          done := false })
    (read :
      framed message ++ extra =
        (readsOf id session.journal).flatten ++ connection.unread)
    (incomplete :
      (readsOf id session.journal).flatten.length < message.length + 2)
    (never : answersOf id session.journal = [])
    (interested : Interested session (.event conn event calls))
    (handled :
      Handled calls event session.master ids id worker conn connection
        next) :
    Tracks message (framed message ++ extra) id conn
      { master := next
        journal :=
          session.journal ++
            eventEntries event calls connection session.master next } := by
  have found :
      session.master.workers.data connection.userp = some worker := by
    rw [user]
    exact pair.found
  rcases of_eventEntries id event calls next found with ⟨reads, answers⟩
  have answersAfter :
      answersOf id
          (session.journal ++
            eventEntries event calls connection session.master next) =
        [] := by
    rw [answersOf_append, never, answers]
    rfl
  cases handled with
  | ignored quiet =>
      have silent :
          Workers.readEntries event calls connection worker = [] := by
        unfold Workers.readEntries
        split
        · next input => rw [quiet input.1]
        · rfl
      have readsAfter :
          readsOf id
              (session.journal ++
                eventEntries event calls connection session.master
                  session.master) =
            readsOf id session.journal := by
        rw [readsOf_append, reads, silent]
        exact List.append_nil _
      refine .waits connection ?_ pair.present user forwarding interest
        ?_ ?_ answersAfter
      · simp only [readsAfter]
        rw [pair.found, own]
      · simp only [readsAfter]
        exact read
      · simp only [readsAfter]
        exact incomplete
  | dropped rewritten listed evfd =>
      exact .dropped rewritten.worker answersAfter
  | wrote output rewritten shorter listed evfd =>
      simp only [Interested, pair.present] at interested
      have impossible := interested forwarding output.2
      rw [interest] at impossible
      have uninterested : ¬ epollin.meets epollout = true := by decide
      exact absurd impossible uninterested
  | @read byte more _ input arrived partly rewritten listed evfd =>
      rcases read_reads session.journal user input arrived reads with
        ⟨flat, _⟩
      have behind := read.trans (append_of_arrived arrived)
      rw [own] at partly rewritten
      refine .waits _ ?_ rewritten.connection user forwarding interest
        ?_ ?_ answersAfter
      · simp only [flat]
        exact rewritten.worker
      · simp only [flat]
        exact behind
      · simp only [flat]
        have front :
            (readsOf id session.journal).flatten ++ byte :: more <+:
              framed message ++ extra := by
          rw [behind]
          exact List.prefix_append _ _
        rw [complete_iff some_byte short front] at partly
        exact Nat.lt_of_not_le partly
  | @finished byte more _ input arrived complete rewritten listed evfd =>
      rcases read_reads session.journal user input arrived reads with
        ⟨flat, split⟩
      have behind := read.trans (append_of_arrived arrived)
      rw [own] at complete rewritten
      have front :
          (readsOf id session.journal).flatten ++ byte :: more <+:
            framed message ++ extra := by
        rw [behind]
        exact List.prefix_append _ _
      refine .done ?_ ⟨?_, ?_, ?_⟩ answersAfter
      · simp only [flat]
        exact rewritten.worker
      · simp only [flat]
        exact front
      · simp only [flat]
        exact (complete_iff some_byte short front).mp complete
      · exact ⟨_, _, split, incomplete⟩

/-- An event of another worker. -/
theorem Tracks.tells_other
    {stream : List UInt8} {connection : Connection} {worker : Worker}
    {channel : Nat} {calls : WorkerCalls} {event : EventMask}
    {next : Master}
    (tracks : Tracks message stream id conn session)
    (pair :
      Pair session.master ids connection.userp worker channel connection)
    (other : connection.userp ≠ id)
    (handled :
      Handled calls event session.master ids connection.userp worker
        channel connection next) :
    Tracks message stream id conn
      { master := next
        journal :=
          session.journal ++
            eventEntries event calls connection session.master next } := by
  rcases of_eventEntries id event calls next pair.found with
    ⟨reads, answers⟩
  rw [readsOf_other event calls worker other] at reads
  have kept :
      ∀ found, session.master.connections conn = some found →
        found.userp = id → next.connections conn = some found := by
    intro found present user
    rw [handled.others.2]
    · exact present
    · rintro rfl
      rw [pair.present] at present
      cases present
      exact other user
  refine
    tracks.frame (handled.others.1 id (Ne.symm other))
      (fun found present user _ => kept found present user) ?_ ?_
  · rw [readsOf_append, reads, List.append_nil]
  · rw [answersOf_append, answers, List.append_nil]

/-- `tcpdns_recv`, for this worker or for another one. -/
theorem Tracks.returns
    {stream : List UInt8} {found : Nat} {worker : Worker} {next : Master}
    (tracks : Tracks message stream id conn session)
    (returned : Returned session.master next ids found worker)
    (size : Nat) :
    Tracks message stream id conn
      { master := next
        journal :=
          session.journal ++
            [.returned found size ((worker.buffer.drop 2).take size)] } := by
  have reads :=
    readsOf_returned id found size ((worker.buffer.drop 2).take size)
      session.journal
  by_cases same : found = id
  · subst same
    cases tracks with
    | waits connection own =>
        rw [returned.found] at own
        cases own
        cases returned.done_
    | done own whole never =>
        rw [returned.found] at own
        cases own
        refine .returned size returned.removed ?_ ?_
        · rw [reads]
          exact whole
        · rw [answersOf_returned, reads, never]
          rfl
    | returned _ gone =>
        rw [returned.found] at gone
        cases gone
    | dropped gone =>
        rw [returned.found] at gone
        cases gone
  · refine tracks.frame (returned.others id (Ne.symm same)) ?_ reads ?_
    · intro connection present _ _
      simp only [returned.connections]
      exact present
    · exact answersOf_returned_other same _ _ _

theorem tracks_turned
    (some_byte : 1 ≤ message.length) (short : message.length < 2 ^ 16)
    (kept : Kept session ids) {turn : Turn}
    (turned : Turned session ids turn after)
    (interested : Interested session turn)
    (made : id < session.master.allocated)
    (tracks :
      Tracks message (framed message ++ extra) id conn session) :
    Tracks message (framed message ++ extra) id conn after ∧
      id < after.master.allocated := by
  cases turned with
  | sends asked =>
      cases asked with
      | refused errno => exact ⟨tracks, made⟩
      | made fresh =>
          refine ⟨tracks.frame ?_ ?_ rfl rfl, ?_⟩
          · exact fresh.workers id (Nat.ne_of_lt made)
          · intro connection present _ _
            simp only [fresh.connections conn
              (Nat.ne_of_lt (kept.sound.live conn connection present).1)]
            exact present
          · simp only [fresh.allocated]
            exact Nat.lt_succ_of_lt made
  | @shakes channel found proxy present shaking =>
      refine ⟨tracks.frame rfl ?_ rfl rfl, made⟩
      intro connection own _ forwarding
      simp only [Master.setConnection]
      rw [if_neg]
      · exact own
      · rintro rfl
        rw [present] at own
        cases own
        rw [shaking] at forwarding
        cases forwarding
  | @tells connection worker channel calls event next pair waiting
      handled =>
      rcases moved_of_handled kept.sound pair rfl waiting handled with
        ⟨_, moved⟩
      refine ⟨?_, by simp only [moved.allocated]; exact made⟩
      by_cases same : connection.userp = id
      · have found := pair.found
        rw [same] at found
        cases tracks with
        | waits own worker_ present user forwarding interest read
            incomplete never =>
            rw [worker_] at found
            cases found
            cases pair.proxy
            have alike := pair.present
            rw [present] at alike
            cases alike
            rw [same] at pair handled
            exact Tracks.tells some_byte short pair user forwarding
              interest rfl read incomplete never interested handled
        | done own =>
            rw [own] at found
            cases found
            cases waiting
        | returned size gone =>
            rw [gone] at found
            cases found
        | dropped gone =>
            rw [gone] at found
            cases found
      · exact tracks.tells_other pair same handled
  | finds_none => exact ⟨tracks, made⟩
  | returns returned =>
      refine ⟨tracks.returns returned _, ?_⟩
      simp only [returned.allocated]
      exact made

end Steps

/-! ## Runs of a worker which has sent its query -/

/-- The whole query was sent, and the nameserver will send this stream. -/
structure Queried
    (conf : Nspconf) (id conn : Nat) (stream : List UInt8)
    (session : Session) : Prop where
  reachable : (tcpdnsSystem conf).Reachable session
  worker :
    session.master.workers.data id =
      some { proxy := some conn, buffer := [], done := false }
  connection :
    ∃ connection,
      session.master.connections conn = some connection ∧
        connection.proxy.phase = .forwarding ∧
        connection.proxy.events = epollin ∧
        connection.unread = stream
  unread : readsOf id session.journal = []

instance (session : Session) (turn : Turn) :
    Decidable (Interested session turn) :=
  match turn with
  | .send _ _ | .shakes _ _ | .recv _ => .isTrue trivial
  | .event conn event _ =>
      match found : session.master.connections conn with
      | none => .isTrue (by simp only [Interested, found])
      | some connection =>
          decidable_of_iff
            (connection.proxy.phase = .forwarding →
              event.meets epollout = true →
              connection.proxy.events.meets epollout = true)
            (by simp only [Interested, found])

/-- The runs from there, with all other workers. -/
def queriedSystem
    (conf : Nspconf) (id conn : Nat) (stream : List UInt8) :
    System Fault Session Turn where
  initial := Queried conf id conn stream
  enabled session turn :=
    tcpdnsEnabled session turn ∧ Interested session turn
  step := tcpdnsStep conf

instance
    (conf : Nspconf) (id conn : Nat) (stream : List UInt8)
    (session : Session) (turn : Turn) :
    Decidable
      ((queriedSystem conf id conn stream).enabled session turn) :=
  inferInstanceAs
    (Decidable (tcpdnsEnabled session turn ∧ Interested session turn))

/-- The connection of the worker is its own. -/
theorem Queried.user
    {conf : Nspconf} {id conn : Nat} {stream : List UInt8}
    {session : Session} {ids : List Nat} {connection : Connection}
    (queried : Queried conf id conn stream session)
    (kept : Kept session ids)
    (present : session.master.connections conn = some connection) :
    connection.userp = id := by
  rcases kept.sound.busy id _ queried.worker rfl with
    ⟨channel, there, same, already, user, _⟩
  cases same
  rw [present] at already
  cases already
  exact user

theorem tracks_queried
    {conf : Nspconf} {id conn : Nat} {stream message : List UInt8}
    {session : Session} (queried : Queried conf id conn stream session) :
    Tracks message stream id conn session ∧
      id < session.master.allocated := by
  rcases kept_of_reachable queried.reachable with ⟨ids, kept⟩
  have member := kept.sound.mem queried.worker
  rcases queried.connection with
    ⟨connection, present, forwarding, interest, unread⟩
  have never : answersOf id session.journal = [] := by
    apply answersOf_eq_nil
    intro gone
    exact kept.past id gone member
  have user := queried.user kept present
  refine ⟨?_, kept.sound.young id member⟩
  refine .waits connection ?_ present user forwarding interest ?_ ?_ never
  · rw [queried.unread]
    exact queried.worker
  · rw [queried.unread, unread]
    rfl
  · rw [queried.unread]
    exact Nat.succ_pos _

theorem tracks_of_reachable
    {conf : Nspconf} {id conn : Nat} {message extra : List UInt8}
    (some_byte : 1 ≤ message.length) (short : message.length < 2 ^ 16)
    {session : Session}
    (reachable :
      (queriedSystem conf id conn
        (framed message ++ extra)).Reachable session) :
    Tracks message (framed message ++ extra) id conn session := by
  have invariant :
      (tcpdnsSystem conf).Reachable session ∧
        Tracks message (framed message ++ extra) id conn session ∧
        id < session.master.allocated := by
    apply reachable.invariant
    · intro source queried
      exact ⟨queried.reachable, tracks_queried queried⟩
    · rintro source turn target ⟨before, tracks, made⟩
        ⟨permitted, interested⟩ handled
      rcases kept_of_reachable before with ⟨ids, kept⟩
      have turned := turned_of_handled kept permitted handled
      exact
        ⟨.next before permitted handled,
          tracks_turned some_byte short kept turned interested made
            tracks⟩
  exact invariant.2.1

/-! ## What is handed over -/

/-- One of the reads ends after so many bytes. -/
def EndsAt (count : Nat) (reads : List (List UInt8)) : Prop :=
  ∃ front back, reads = front ++ back ∧ front.flatten.length = count

/-- The worker stops at the first read which completes the message. -/
theorem Whole.endsAt_iff
    {message stream : List UInt8} {reads : List (List UInt8)}
    (whole : Whole message stream reads) :
    EndsAt (message.length + 2) reads ↔
      reads.flatten.length = message.length + 2 := by
  constructor
  · rintro ⟨front, back, split, size⟩
    rcases whole.last with ⟨before, bytes, last, early⟩
    rcases List.eq_nil_or_concat back with rfl | ⟨middle, end_, rfl⟩
    · rw [split, List.append_nil]
      exact size
    · rw [List.concat_eq_append, ← List.append_assoc, last] at split
      have same := (List.append_inj' split rfl).1
      rw [same, List.flatten_append, List.length_append, size] at early
      omega
  · intro size
    exact ⟨reads, [], (List.append_nil _).symm, size⟩

/-- What is handed over is the message, and what was read behind it. -/
theorem answer_iff
    {message extra got : List UInt8} {size : Nat}
    (front : got <+: framed message ++ extra)
    (long : message.length + 2 ≤ got.length)
    (room : message.length ≤ size) :
    (got.drop 2).take size = message ↔
      size = message.length ∨ got.length = message.length + 2 := by
  have contained : framed message <+: got :=
    List.prefix_of_prefix_length_le (List.prefix_append _ _) front long
  rcases contained with ⟨rest, rfl⟩
  have behind : (framed message ++ rest).drop 2 = message ++ rest := rfl
  rw [behind, List.take_append, List.take_of_length_le room,
    List.append_right_eq_self, List.take_eq_nil_iff, List.length_append,
    length_framed]
  constructor
  · rintro (fits | nothing)
    · exact .inl (by omega)
    · rw [nothing]
      exact .inr rfl
  · rintro (fits | nothing)
    · exact .inl (by omega)
    · refine .inr (List.eq_nil_of_length_eq_zero ?_)
      omega

/--
The worker waits for no more than the message, and its answer, in a buffer
which holds it, is the message exactly when one of the reads ended with it or
the buffer cuts off what is behind it.
-/
theorem tcpdns_deframing_iff
    (conf : Nspconf) (id conn : Nat) {message extra : List UInt8}
    (some_byte : 1 ≤ message.length) (fits : message.length ≤ 4094)
    {session : Session}
    (reachable :
      (queriedSystem conf id conn
        (framed message ++ extra)).Reachable session) :
    (∀ worker, session.master.workers.data id = some worker →
      worker.done = false →
      (readsOf id session.journal).flatten.length <
        message.length + 2) ∧
    ∀ size answer, .returned id size answer ∈ session.journal →
      message.length ≤ size →
      (answer = message ↔
        size = message.length ∨
          EndsAt (message.length + 2) (readsOf id session.journal)) := by
  have short : message.length < 2 ^ 16 := by omega
  have tracks := tracks_of_reachable some_byte short reachable
  constructor
  · intro worker found waiting
    cases tracks with
    | waits connection own present user forwarding interest read
        incomplete never =>
        exact incomplete
    | done own whole never =>
        rw [found] at own
        cases own
        cases waiting
    | returned size gone =>
        rw [found] at gone
        cases gone
    | dropped gone =>
        rw [found] at gone
        cases gone
  · intro size answer member room
    rw [mem_answersOf] at member
    cases tracks with
    | waits connection own present user forwarding interest read
        incomplete never =>
        rw [never] at member
        cases member
    | done own whole never =>
        rw [never] at member
        cases member
    | returned given gone whole once =>
        rw [once, List.mem_singleton] at member
        cases member
        rw [whole.endsAt_iff]
        exact answer_iff whole.front whole.long room
    | dropped gone never =>
        rw [never] at member
        cases member

/-- The query is sent to a nameserver which will send this stream. -/
def queryRun (stream : List UInt8) : List Turn :=
  [.send [3, 4] (sampleDial stream), .event 0 epollout (sampleCalls 9)]

/-- What is to be seen of the worker when its query was sent. -/
def queriedTest (stream : List UInt8) (session : Session) : Bool :=
  decide
    (session.master.workers.data 0 =
        some { proxy := some 0, buffer := [], done := false } ∧
      session.master.connections 0 =
        some
          { proxy := { phase := .forwarding, events := epollin }
            refcnt := 1
            userp := 0
            unread := stream } ∧
      readsOf 0 session.journal = [])

/-- A call hands over this answer. -/
def answered (answer : List UInt8) (session : Session) : Bool :=
  decide (.returned 0 512 answer ∈ session.journal)

/-- The run of a query, and what its answer becomes. -/
theorem exists_answered
    {stream answer : List UInt8} {turns : List Turn}
    (passes :
      (((tcpdnsSystem sampleConf).replay
          { master := tcpdnsCreate, journal := [] }
          (queryRun stream)).bind fun session =>
        if queriedTest stream session then
          (queriedSystem sampleConf 0 0 stream).replay session turns
        else
          none).map (answered answer) = some true) :
    ∃ session,
      (queriedSystem sampleConf 0 0 stream).Reachable session ∧
        .returned 0 512 answer ∈ session.journal := by
  rcases Option.map_eq_some_iff.mp passes with ⟨last, ran, tested⟩
  rcases Option.bind_eq_some_iff.mp ran with ⟨first, asked, rest⟩
  split at rest
  · next queried =>
      rcases of_decide_eq_true queried with ⟨worker, present, unread⟩
      have reachable : (tcpdnsSystem sampleConf).Reachable first :=
        System.Reachable.replay (.start rfl) asked
      have start : Queried sampleConf 0 0 stream first :=
        ⟨reachable, worker, ⟨_, present, rfl, rfl, rfl⟩, unread⟩
      exact
        ⟨last, System.Reachable.replay (.start start) rest,
          of_decide_eq_true tested⟩
  · cases rest

/-- The stream is read in pieces, of which the third ends with the message. -/
def sampleReads : List Turn :=
  [.event 0 epollin (sampleCalls 0), .event 0 epollin (sampleCalls 1),
    .event 0 epollin (sampleCalls 1), .recv 512]

theorem tcpdns_deframing_pieces :
    ∃ session : Workers.Session,
      (queriedSystem sampleConf 0 0
          (framed [7, 8, 9] ++ [1, 2])).Reachable session ∧
        .returned 0 512 [7, 8, 9] ∈ session.journal ∧
        EndsAt 5 (readsOf 0 session.journal) := by
  have some_byte : 1 ≤ [(7 : UInt8), 8, 9].length := by decide
  have fits : [(7 : UInt8), 8, 9].length ≤ 4094 := by decide
  have passes :
      (((tcpdnsSystem sampleConf).replay
          { master := tcpdnsCreate, journal := [] }
          (queryRun (framed [7, 8, 9] ++ [1, 2]))).bind fun session =>
        if queriedTest (framed [7, 8, 9] ++ [1, 2]) session then
          (queriedSystem sampleConf 0 0
            (framed [7, 8, 9] ++ [1, 2])).replay session sampleReads
        else
          none).map (answered [7, 8, 9]) = some true := by
    decide +kernel
  rcases exists_answered passes with ⟨session, reachable, member⟩
  have exact_ :=
    (tcpdns_deframing_iff sampleConf 0 0 some_byte fits reachable).2 512
      [7, 8, 9] member (by decide)
  refine ⟨session, reachable, member, ?_⟩
  rcases exact_.mp rfl with impossible | ends
  · cases impossible
  · exact ends

/-- A nameserver which sends a byte behind its answer. -/
theorem tcpdns_answer_with_extra :
    ¬ ∀ session,
      (queriedSystem sampleConf 0 0
        (framed [7] ++ [9])).Reachable session →
      ∀ size answer, .returned 0 size answer ∈ session.journal →
        [(7 : UInt8)].length ≤ size → answer = [7] := by
  intro claimed
  have passes :
      (((tcpdnsSystem sampleConf).replay
          { master := tcpdnsCreate, journal := [] }
          (queryRun (framed [7] ++ [9]))).bind fun session =>
        if queriedTest (framed [7] ++ [9]) session then
          (queriedSystem sampleConf 0 0 (framed [7] ++ [9])).replay session
            [.event 0 epollin (sampleCalls 99), .recv 512]
        else
          none).map (answered [7, 9]) = some true := by
    decide +kernel
  rcases exists_answered passes with ⟨session, reachable, member⟩
  have same := claimed session reachable 512 [7, 9] member (by decide)
  cases same

end Nsproxy.Tcpdns.Deframing
