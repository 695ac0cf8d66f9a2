import Mathlib.Tactic.Common
import Nsproxy.Conf
import Nsproxy.Lib.Linked
import Nsproxy.Lib.Transition
import Nsproxy.Lwip.Opts
import Nsproxy.Skutils
import Nsproxy.Handshake.Socket
import Nsproxy.Tcpdns.Answers
import Nsproxy.Tcpdns.Deframing
import Nsproxy.Tcpdns.Exchanges
import Nsproxy.Tcpdns.Workers

/-!
# The delivery of an answer

A worker which has sent its query reads into what is left of its buffer.  A
length of two bytes goes up to 65535, and the buffer has 4096 bytes.  When the
buffer is full and the message is not complete, the next `recv` is one of no
bytes.  It returns zero, which the worker takes for the end of the stream.

`Watched` counts the events which show bytes to the worker.  Each of them
brings at least one byte as long as there is room, so a message which fits is
complete after as many events as it has bytes.
-/

namespace Nsproxy.Tcpdns.Delivery

open Nsproxy.Conf
open Nsproxy.Lib.Linked
open Nsproxy.Lib.Transition
open Nsproxy.Lwip.Opts
open Nsproxy.Skutils
open Nsproxy.Handshake.Socket
open Nsproxy.Tcpdns.Answers
open Nsproxy.Tcpdns.Deframing
open Nsproxy.Tcpdns.Exchanges
open Nsproxy.Tcpdns.Workers

/-! ## Runs -/

/-- A session, and how many events have shown bytes to the worker. -/
structure Watched where
  session : Session
  events : Nat

/-- The turn is an event of the worker, and its `recv` finds bytes. -/
def showsBytes (id : Nat) (session : Session) : Turn → Bool
  | .event conn event calls =>
      match session.master.connections conn, calls.arrival with
      | some connection, .shows _ =>
          decide (connection.userp = id ∧ Reads event)
      | _, _ => false
  | _ => false

/--
The socket of the worker does not fail, and neither does the `write` to the
`eventfd` when the message is complete.
-/
def Undisturbed (id : Nat) (session : Session) : Turn → Prop
  | .event conn event calls =>
      ∀ connection worker,
        session.master.connections conn = some connection →
        connection.userp = id →
        session.master.workers.data id = some worker →
          event.meets epollerr = false ∧
          (∀ errno, calls.arrival ≠ .fails errno) ∧
          ∀ bytes,
            workerRecv calls connection worker = .data bytes →
            Complete (worker.buffer ++ bytes) →
              session.master.evfd.counter < eventfdMax
  | _ => True

instance (buffer : List UInt8) : Decidable (Complete buffer) :=
  inferInstanceAs (Decidable (_ ∧ _))

/-- Whether nothing disturbs the worker, as it is computed. -/
def isUndisturbed (id : Nat) (session : Session) : Turn → Bool
  | .event conn event calls =>
      match session.master.connections conn,
          session.master.workers.data id with
      | some connection, some worker =>
          !decide (connection.userp = id) ||
            (!event.meets epollerr &&
              (match calls.arrival with
                | .fails _ => false
                | _ => true) &&
              match workerRecv calls connection worker with
              | .data bytes =>
                  !decide (Complete (worker.buffer ++ bytes)) ||
                    decide (session.master.evfd.counter < eventfdMax)
              | .err _ => true)
      | _, _ => true
  | _ => true

theorem isUndisturbed_iff
    (id : Nat) (session : Session) (turn : Turn) :
    isUndisturbed id session turn = true ↔
      Undisturbed id session turn := by
  cases turn with
  | event conn event calls =>
      simp only [isUndisturbed, Undisturbed]
      cases session.master.connections conn with
      | none => simp
      | some connection =>
          cases session.master.workers.data id with
          | none => simp
          | some worker =>
              cases arrival : calls.arrival <;>
                cases received : workerRecv calls connection worker <;>
                simp [received] <;> grind
  | _ => simp [isUndisturbed, Undisturbed]

instance (id : Nat) (session : Session) (turn : Turn) :
    Decidable (Undisturbed id session turn) :=
  decidable_of_iff _ (isUndisturbed_iff id session turn)

/-- One turn. -/
def deliveryStep
    (conf : Nspconf) (id : Nat) (watched : Watched) (turn : Turn) :
    Except Fault Watched :=
  match tcpdnsStep conf watched.session turn with
  | .error fault => .error fault
  | .ok next =>
      .ok
        { session := next
          events :=
            if showsBytes id watched.session turn then
              watched.events + 1
            else
              watched.events }

/-- The runs from a session in which nothing disturbs the worker. -/
def deliverySystem (conf : Nspconf) (id : Nat) (start : Session) :
    System Fault Watched Turn where
  initial watched := watched = { session := start, events := 0 }
  enabled watched turn :=
    tcpdnsEnabled watched.session turn ∧
      Interested watched.session turn ∧
      Undisturbed id watched.session turn
  step := deliveryStep conf id

instance (conf : Nspconf) (id : Nat) (start : Session)
    (watched : Watched) (turn : Turn) :
    Decidable ((deliverySystem conf id start).enabled watched turn) :=
  inferInstanceAs
    (Decidable
      (tcpdnsEnabled watched.session turn ∧
        Interested watched.session turn ∧
        Undisturbed id watched.session turn))

/--
The worker is not destroyed before its answer is returned: it waits, and has
not been shown bytes as often as the message has bytes, or the message is
there for `tcpdns_recv`, or it was returned, as much of it as had room.
-/
inductive Served
    (reply : List UInt8) (id : Nat) (watched : Watched) : Prop where
  | waits (worker : Worker)
      (found : watched.session.master.workers.data id = some worker)
      (waiting : worker.done = false)
      (early : watched.events < reply.length + 2)
  | done
      (found :
        watched.session.master.workers.data id =
          some { proxy := none, buffer := framed reply, done := true })
  | returned (size : Nat)
      (once :
        answersOf id watched.session.journal =
          [(size, reply.take size)])

/-! ## Events of the worker -/

section Events

variable {calls : WorkerCalls} {event : EventMask} {before after : Master}
  {ids : List Nat} {id : Nat} {worker : Worker} {conn : Nat}
  {connection : Connection}

/-- The call of an event which is to be read. -/
theorem called_of_reads
    (pair : Pair before ids id worker conn connection)
    (reads : Reads event) :
    tcpdnsWorkerHandleEvent calls id event before =
      workerInput calls id conn worker connection before := by
  have noError : ¬ event.meets epollerr = true := by
    rw [reads.1]
    exact Bool.false_ne_true
  simp only [tcpdnsWorkerHandleEvent, pair.found, if_neg noError,
    if_pos (Or.inl reads.2), pair.proxy, pair.present, if_pos reads.2]

/-- A `recv` of no bytes destroys the worker. -/
theorem gone_of_nothing
    (pair : Pair before ids id worker conn connection)
    (reads : Reads event)
    (nothing : workerRecv calls connection worker = .data [])
    (called :
      tcpdnsWorkerHandleEvent calls id event before = .ok after) :
    after.workers.data id = none := by
  rcases destroy_busy pair.listed pair.member pair.found pair.proxy
      pair.present pair.single with ⟨gone, destroyed, rewritten, _⟩
  rw [called_of_reads pair reads] at called
  simp only [workerInput, nothing, destroyed] at called
  cases called
  exact rewritten.worker

/-- A complete message is kept when the master can be noticed. -/
theorem stays_of_finish
    (pair : Pair before ids id worker conn connection)
    (counts : before.evfd.counter < eventfdMax)
    {filled : Worker} {unread : List UInt8}
    (finished :
      finishWorker id conn filled
          (before.setConnection conn
            (some { connection with unread := unread })) = .ok after) :
    after.workers.data id ≠ none := by
  rcases pair.marks filled unread with
    ⟨marked, finish, rewritten, _, evfd⟩
  have posted :
      marked.evfd.write 1 =
        some { marked.evfd with counter := marked.evfd.counter + 1 } := by
    rw [Eventfd.write, evfd]
    exact if_pos counts
  rw [finish, posted] at finished
  cases finished
  simp only [rewritten.worker]
  exact Option.some_ne_none _

/-- Bytes which arrive do not destroy the worker. -/
theorem stays_of_bytes
    (pair : Pair before ids id worker conn connection)
    (reads : Reads event) {byte : UInt8} {more : List UInt8}
    (arrived : workerRecv calls connection worker = .data (byte :: more))
    (counts :
      Complete (worker.buffer ++ byte :: more) →
        before.evfd.counter < eventfdMax)
    (called :
      tcpdnsWorkerHandleEvent calls id event before = .ok after) :
    after.workers.data id ≠ none := by
  rw [called_of_reads pair reads] at called
  simp only [workerInput, arrived] at called
  split at called
  · next complete =>
      exact stays_of_finish pair (counts complete) called
  · next incomplete =>
      rcases setWorker_spec
          (before.setConnection conn
            (some
              { connection with
                unread := connection.unread.drop (more.length + 1) }))
          pair.listed pair.member
          { worker with buffer := worker.buffer ++ byte :: more } with
        ⟨next, set, _, new, _⟩
      rw [set] at called
      cases called
      rw [new]
      exact Option.some_ne_none _

/-- Nothing is done for an event which is not asked for. -/
theorem same_of_quiet
    (pair : Pair before ids id worker conn connection)
    (noError : event.meets epollerr = false)
    (noInput : event.meets epollin = false)
    (noOutput : event.meets epollout = false)
    (called :
      tcpdnsWorkerHandleEvent calls id event before = .ok after) :
    after = before := by
  simp only [tcpdnsWorkerHandleEvent, pair.found, noError, noInput,
    noOutput] at called
  cases called
  rfl

/-- The `recv` finds bytes, as long as there is room for them. -/
theorem recv_of_room
    (forwarding : connection.proxy.phase = .forwarding)
    (room : worker.buffer.length < bufferSize)
    (some_byte : connection.unread ≠ []) {more : Nat}
    (shows : calls.arrival = .shows more) :
    ∃ byte rest,
      workerRecv calls connection worker = .data (byte :: rest) := by
  have arrived :
      workerRecv calls connection worker =
        .data
          ((calls.arrival.shown connection.unread).take
            (bufferSize - worker.buffer.length)) := by
    simp only [workerRecv, Proxy.recv, forwarding, shows, Arrival.answer,
      Arrival.shown]
  have found :=
    take_shown_ne_nil shows some_byte (Nat.sub_pos_of_lt room)
  rcases List.exists_cons_of_ne_nil found with ⟨byte, rest, bytes⟩
  refine ⟨byte, rest, ?_⟩
  rw [arrived, bytes]

/-- An event of the worker which does not disturb it. -/
theorem stays_of_event
    (pair : Pair before ids id worker conn connection)
    (forwarding : connection.proxy.phase = .forwarding)
    (room : worker.buffer.length < bufferSize)
    (some_byte : connection.unread ≠ [])
    (noError : event.meets epollerr = false)
    (noOutput : event.meets epollout = false)
    (noFailure : ∀ errno, calls.arrival ≠ .fails errno)
    (counts :
      ∀ bytes,
        workerRecv calls connection worker = .data bytes →
        Complete (worker.buffer ++ bytes) →
          before.evfd.counter < eventfdMax)
    (called :
      tcpdnsWorkerHandleEvent calls id event before = .ok after) :
    after.workers.data id ≠ none := by
  cases input : event.meets epollin with
  | false =>
      rw [same_of_quiet pair noError input noOutput called, pair.found]
      exact Option.some_ne_none _
  | true =>
      have reads : Reads event := ⟨noError, input⟩
      cases arrival : calls.arrival with
      | waits =>
          have again :
              workerRecv calls connection worker = .err .eagain := by
            simp only [workerRecv, Proxy.recv, forwarding, arrival,
              Arrival.answer]
          rw [called_of_reads pair reads] at called
          simp only [workerInput, again] at called
          cases called
          rw [pair.found]
          exact Option.some_ne_none _
      | shows more =>
          rcases recv_of_room forwarding room some_byte arrival with
            ⟨byte, rest, arrived⟩
          exact
            stays_of_bytes pair reads arrived (counts _ arrived) called
      | fails errno => exact absurd arrival (noFailure errno)

end Events

/-! ## A worker which waits -/

/-- A connection of the worker, while it waits for the rest of the message. -/
structure Waiting
    (reply : List UInt8) (id conn : Nat) (session : Session)
    (ids : List Nat) (connection : Connection) : Prop where
  pair :
    Pair session.master ids id
      { proxy := some conn
        buffer := (readsOf id session.journal).flatten
        done := false }
      conn connection
  user : connection.userp = id
  forwarding : connection.proxy.phase = .forwarding
  interest : connection.proxy.events = epollin
  read :
    framed reply =
      (readsOf id session.journal).flatten ++ connection.unread
  incomplete :
    (readsOf id session.journal).flatten.length < reply.length + 2
  never : answersOf id session.journal = []

section Waits

variable {conf : Nspconf} {reply : List UInt8} {id conn channel : Nat}
  {session after : Session} {ids : List Nat} {connection : Connection}
  {event : EventMask} {calls : WorkerCalls}

/-- A worker with a connection waits. -/
theorem waiting_of_present
    (tracks : Tracks reply (framed reply) id conn session)
    (kept : Kept session ids)
    (present : session.master.connections channel = some connection)
    (user : connection.userp = id) :
    channel = conn ∧ Waiting reply id conn session ids connection := by
  rcases kept.sound.user present with
    ⟨worker, found, proxy, waiting, single⟩
  rw [user] at found
  cases tracks with
  | waits own data there user_ forwarding interest read incomplete
      never =>
      rw [data] at found
      cases found
      cases proxy
      rw [present] at there
      cases there
      have pair :
          Pair session.master ids id
            { proxy := some conn
              buffer := (readsOf id session.journal).flatten
              done := false }
            conn connection :=
        ⟨kept.sound.listed, kept.sound.mem data, data, rfl, present,
          single⟩
      exact
        ⟨rfl, pair, user, forwarding, interest, read, incomplete, never⟩
  | done data whole never =>
      rw [data] at found
      cases found
      cases waiting
  | returned size gone whole once =>
      rw [gone] at found
      cases found
  | dropped gone never =>
      rw [gone] at found
      cases found

/-- There are bytes which the worker has not read. -/
theorem Waiting.unread
    (waiting : Waiting reply id conn session ids connection) :
    connection.unread ≠ [] := by
  intro nothing
  have short := waiting.incomplete
  rw [← length_framed, waiting.read, nothing, List.append_nil] at short
  exact Nat.lt_irrefl _ short

/-- There is room for more bytes of a message which fits. -/
theorem Waiting.room
    (waiting : Waiting reply id conn session ids connection)
    (fits : reply.length + 2 ≤ bufferSize) :
    (readsOf id session.journal).flatten.length < bufferSize :=
  Nat.lt_of_lt_of_le waiting.incomplete fits

theorem Waiting.stays
    (waiting : Waiting reply id conn session ids connection)
    (fits : reply.length + 2 ≤ bufferSize)
    (interested : Interested session (.event conn event calls))
    (undisturbed : Undisturbed id session (.event conn event calls))
    {next : Master}
    (called :
      tcpdnsWorkerHandleEvent calls id event session.master =
        .ok next) :
    next.workers.data id ≠ none := by
  have noOutput : event.meets epollout = false := by
    rw [Bool.eq_false_iff]
    intro output
    simp only [Interested, waiting.pair.present] at interested
    have asked := interested waiting.forwarding output
    rw [waiting.interest] at asked
    revert asked
    decide
  rcases undisturbed connection _ waiting.pair.present waiting.user
      waiting.pair.found with ⟨noError, noFailure, counts⟩
  exact
    stays_of_event waiting.pair waiting.forwarding (waiting.room fits)
      waiting.unread noError noOutput noFailure counts called

/-- What the worker has read after an event. -/
theorem Waiting.reads
    (waiting : Waiting reply id conn session ids connection)
    (next : Master) :
    (readsOf id
        (session.journal ++
          eventEntries event calls connection session.master
            next)).flatten =
      (readsOf id session.journal).flatten ++
        newRead event calls connection
          { proxy := some conn
            buffer := (readsOf id session.journal).flatten
            done := false } := by
  have found := waiting.pair.found
  rw [← waiting.user] at found
  rcases of_eventEntries id event calls next found with ⟨reads, _⟩
  rw [readsOf_append, reads, List.flatten_append,
    flatten_readEntries event calls _ waiting.user, waiting.user]

/-- An event which shows bytes brings at least one. -/
theorem Waiting.brings
    (waiting : Waiting reply id conn session ids connection)
    (fits : reply.length + 2 ≤ bufferSize) (reads : Reads event)
    {more : Nat} (shows : calls.arrival = .shows more) (next : Master) :
    (readsOf id session.journal).flatten.length + 1 ≤
      (readsOf id
        (session.journal ++
          eventEntries event calls connection session.master
            next)).flatten.length := by
  rcases @recv_of_room calls
      { proxy := some conn
        buffer := (readsOf id session.journal).flatten
        done := false }
      connection waiting.forwarding (waiting.room fits) waiting.unread more
      shows with ⟨byte, rest, arrived⟩
  rw [waiting.reads next, newRead, if_pos reads, arrived,
    List.length_append, List.length_cons]
  omega

end Waits

/-! ## One turn -/

/-- Where the worker is, that it was not destroyed, and what it was shown. -/
structure Watches
    (reply : List UInt8) (id conn : Nat) (watched : Watched) :
    Prop where
  tracks : Tracks reply (framed reply) id conn watched.session
  made : id < watched.session.master.allocated
  spared :
    watched.session.master.workers.data id = none →
      answersOf id watched.session.journal ≠ []
  shown :
    watched.events ≤
      (readsOf id watched.session.journal).flatten.length

/-- A worker which is watched is served. -/
theorem Watches.served
    {reply : List UInt8} {id conn : Nat} {watched : Watched}
    (watches : Watches reply id conn watched) :
    Served reply id watched := by
  have whole_eq :
      Whole reply (framed reply)
          (readsOf id watched.session.journal) →
        (readsOf id watched.session.journal).flatten =
          framed reply := by
    intro whole
    exact whole.front.eq_of_length_le whole.long
  cases watches.tracks with
  | waits connection found present user forwarding interest read
      incomplete never =>
      exact
        .waits _ found rfl (Nat.lt_of_le_of_lt watches.shown incomplete)
  | done found whole never =>
      rw [whole_eq whole] at found
      exact .done found
  | returned size gone whole once =>
      rw [whole_eq whole] at once
      exact .returned size once
  | dropped gone never => exact absurd never (watches.spared gone)

section Turns

variable {conf : Nspconf} {reply : List UInt8} {id conn : Nat}
  {session after : Session} {ids : List Nat} {turn : Turn}

/-- The journal only grows. -/
theorem reads_grow (turned : Turned session ids turn after) :
    (readsOf id session.journal).flatten.length ≤
      (readsOf id after.journal).flatten.length := by
  have grows : ∃ entries, after.journal = session.journal ++ entries := by
    cases turned with
    | sends asked => exact ⟨[], (List.append_nil _).symm⟩
    | shakes present shaking => exact ⟨[], (List.append_nil _).symm⟩
    | tells pair waiting handled => exact ⟨_, rfl⟩
    | finds_none => exact ⟨[], (List.append_nil _).symm⟩
    | returns returned => exact ⟨_, rfl⟩
  rcases grows with ⟨entries, journal⟩
  rw [journal, readsOf_append, List.flatten_append, List.length_append]
  exact Nat.le_add_right _ _

/-- Only an event of the worker, or a call, takes it away. -/
theorem spared_turned
    (turned : Turned session ids turn after)
    (made : id < session.master.allocated)
    (spared :
      session.master.workers.data id = none →
        answersOf id session.journal ≠ [])
    (stays :
      ∀ channel event calls connection,
        turn = .event channel event calls →
        session.master.connections channel = some connection →
        connection.userp = id →
          after.master.workers.data id ≠ none)
    (gone : after.master.workers.data id = none) :
    answersOf id after.journal ≠ [] := by
  cases turned with
  | sends asked =>
      cases asked with
      | refused errno => exact spared gone
      | made fresh =>
          have same := fresh.workers id (Nat.ne_of_lt made)
          exact spared (same.symm.trans gone)
  | shakes present shaking => exact spared gone
  | @tells connection worker channel calls event next pair waiting
      handled =>
      by_cases own : connection.userp = id
      · exact
          absurd gone
            (stays channel event calls connection rfl pair.present own)
      · rcases of_eventEntries id event calls next pair.found with
          ⟨_, answers⟩
        have same := handled.others.1 id (Ne.symm own)
        rw [answersOf_append, answers, List.append_nil]
        exact spared (same.symm.trans gone)
  | finds_none => exact spared gone
  | @returns next worker size found returned =>
      by_cases same : found = id
      · rw [same, answersOf_returned]
        exact List.concat_ne_nil _ _
      · have data := returned.others id (Ne.symm same)
        rw [answersOf_returned_other same]
        exact spared (data.symm.trans gone)

/-- The count of the events. -/
theorem shown_turned
    (tracks : Tracks reply (framed reply) id conn session)
    (fits : reply.length + 2 ≤ bufferSize) (kept : Kept session ids)
    (turned : Turned session ids turn after)
    (shows : showsBytes id session turn = true) :
    (readsOf id session.journal).flatten.length + 1 ≤
      (readsOf id after.journal).flatten.length := by
  cases turned with
  | sends asked => cases shows
  | shakes present shaking => cases shows
  | @tells connection worker channel calls event next pair waiting
      handled =>
      simp only [showsBytes, pair.present] at shows
      cases arrival : calls.arrival with
      | waits =>
          rw [arrival] at shows
          cases shows
      | fails errno =>
          rw [arrival] at shows
          cases shows
      | shows more =>
          rw [arrival] at shows
          rcases of_decide_eq_true shows with ⟨own, reads⟩
          rcases waiting_of_present tracks kept pair.present own with
            ⟨_, waits⟩
          exact waits.brings fits reads arrival next
  | finds_none => cases shows
  | returns returned => cases shows

theorem tracks_step
    {next : Session}
    (tracks : Tracks reply (framed reply) id conn session)
    (some_byte : 1 ≤ reply.length) (short : reply.length < 2 ^ 16)
    (kept : Kept session ids) (made : id < session.master.allocated)
    (permitted : tcpdnsEnabled session turn)
    (interested : Interested session turn)
    (stepped : tcpdnsStep conf session turn = .ok next) :
    Tracks reply (framed reply) id conn next ∧
      id < next.master.allocated := by
  have turned := turned_of_handled kept permitted stepped
  rw [← List.append_nil (framed reply)] at tracks ⊢
  exact
    tracks_turned some_byte short kept turned interested made tracks

/-- One turn, of this worker or of another one. -/
theorem Watches.step
    {watched next : Watched}
    (watches : Watches reply id conn watched)
    (some_byte : 1 ≤ reply.length) (short : reply.length < 2 ^ 16)
    (fits : reply.length + 2 ≤ bufferSize)
    (kept : Kept watched.session ids)
    (permitted : (deliverySystem conf id session).enabled watched turn)
    (stepped : deliveryStep conf id watched turn = .ok next) :
    Watches reply id conn next := by
  rcases permitted with ⟨enabled, interested, undisturbed⟩
  cases result : tcpdnsStep conf watched.session turn with
  | error fault =>
      rw [deliveryStep, result] at stepped
      cases stepped
  | ok last =>
      rw [deliveryStep, result] at stepped
      cases stepped
      have turned := turned_of_handled kept enabled result
      rcases tracks_step watches.tracks some_byte short kept watches.made
          enabled interested result with ⟨tracked, made⟩
      refine ⟨tracked, made, ?_, ?_⟩
      · apply spared_turned turned watches.made watches.spared
        rintro channel event calls connection rfl present own
        have called := called_of_step present result
        rw [own] at called
        rcases waiting_of_present watches.tracks kept present own with
          ⟨rfl, waits⟩
        exact waits.stays fits interested undisturbed called
      · split
        · next shows =>
            exact
              Nat.le_trans (Nat.succ_le_succ watches.shown)
                (shown_turned watches.tracks fits kept turned shows)
        · exact Nat.le_trans watches.shown (reads_grow turned)

end Turns

/-! ## Runs -/

section Run

variable {conf : Nspconf} {reply : List UInt8} {id conn : Nat}
  {start : Session} {watched : Watched}

/-- The session of a run is one of the runs of the master. -/
theorem reachable_watched
    (queried : Queried conf id conn (framed reply) start)
    (reachable : (deliverySystem conf id start).Reachable watched) :
    (tcpdnsSystem conf).Reachable watched.session := by
  apply reachable.view Watched.session
  · rintro source rfl
    exact queried.reachable
  · intro source turn target permitted stepped
    cases result : tcpdnsStep conf source.session turn with
    | error fault =>
        simp only [deliverySystem, deliveryStep, result] at stepped
        cases stepped
    | ok next =>
        simp only [deliverySystem, deliveryStep, result] at stepped
        cases stepped
        exact ⟨permitted.1, result⟩

/-- A message which fits the buffer is delivered. -/
theorem watches_of_reachable
    (some_byte : 1 ≤ reply.length) (short : reply.length < 2 ^ 16)
    (fits : reply.length + 2 ≤ bufferSize)
    (queried : Queried conf id conn (framed reply) start)
    (reachable : (deliverySystem conf id start).Reachable watched) :
    Watches reply id conn watched := by
  have invariant :
      (deliverySystem conf id start).Reachable watched ∧
        Watches reply id conn watched := by
    apply reachable.invariant
    · rintro source rfl
      rcases tracks_queried queried with ⟨tracks, made⟩
      refine ⟨.start rfl, tracks, made, ?_, Nat.zero_le _⟩
      intro gone
      rw [queried.worker] at gone
      cases gone
    · rintro source turn target ⟨before, watches⟩ permitted stepped
      rcases kept_of_reachable (reachable_watched queried before) with
        ⟨ids, kept⟩
      exact
        ⟨.next before permitted stepped,
          watches.step some_byte short fits kept permitted stepped⟩
  exact invariant.2

/-- A worker which is gone without an answer is not served. -/
theorem not_served_of_gone
    (gone : watched.session.master.workers.data id = none)
    (never : answersOf id watched.session.journal = []) :
    ¬ Served reply id watched := by
  intro served
  cases served with
  | waits worker found =>
      rw [gone] at found
      cases found
  | done found =>
      rw [gone] at found
      cases found
  | returned size once =>
      rw [never] at once
      cases once

end Run

/-! ## A message which does not fit -/

section Overflow

variable {conf : Nspconf} {reply : List UInt8} {id conn : Nat}
  {start session : Session} {ids : List Nat} {connection : Connection}
  {calls : WorkerCalls}

/-- The message is never complete. -/
theorem Waiting.incomplete_of_long
    (waiting : Waiting reply id conn session ids connection)
    (kept : Kept session ids)
    (some_byte : 1 ≤ reply.length) (short : reply.length < 2 ^ 16)
    (long : bufferSize < reply.length + 2) {bytes : List UInt8}
    (arrived :
      workerRecv calls connection
          { proxy := some conn
            buffer := (readsOf id session.journal).flatten
            done := false } = .data bytes) :
    ¬ Complete ((readsOf id session.journal).flatten ++ bytes) := by
  intro complete
  have front :
      (readsOf id session.journal).flatten ++ bytes <+:
        framed reply ++ [] := by
    rw [List.append_nil, waiting.read]
    cases bytes with
    | nil =>
        rw [List.append_nil]
        exact List.prefix_append _ _
    | cons byte more =>
        rw [append_of_arrived arrived]
        exact List.prefix_append _ _
  have whole := (complete_iff some_byte short front).mp complete
  have fits :
      ((readsOf id session.journal).flatten ++ bytes).length ≤
        bufferSize :=
    length_workerRecv (kept.sound.fits id _ waiting.pair.found) arrived
  omega

/-- An event which shows bytes disturbs no worker of such a message. -/
theorem Waiting.undisturbed
    (waiting : Waiting reply id conn session ids connection)
    (kept : Kept session ids)
    (some_byte : 1 ≤ reply.length) (short : reply.length < 2 ^ 16)
    (long : bufferSize < reply.length + 2) {more : Nat}
    (shows : calls.arrival = .shows more) :
    Undisturbed id session (.event conn epollin calls) := by
  intro found worker present _ data
  rw [waiting.pair.present] at present
  cases present
  rw [waiting.pair.found] at data
  cases data
  refine ⟨by decide, ?_, ?_⟩
  · intro errno fails
    rw [shows] at fails
    cases fails
  · intro bytes arrived complete
    exact
      absurd complete
        (waiting.incomplete_of_long kept some_byte short long arrived)

theorem Waiting.interested
    (waiting : Waiting reply id conn session ids connection)
    (calls : WorkerCalls) :
    Interested session (.event conn epollin calls) := by
  simp only [Interested, waiting.pair.present]
  intro _ output
  exact absurd output (by decide)

/-- The event is one of the runs. -/
theorem exists_told
    {watched : Watched}
    (reachable : (deliverySystem conf id start).Reachable watched)
    (waiting :
      Waiting reply id conn watched.session ids connection)
    (undisturbed :
      Undisturbed id watched.session (.event conn epollin calls)) :
    ∃ next : Watched,
      (deliverySystem conf id start).Reachable next ∧
        tcpdnsStep conf watched.session (.event conn epollin calls) =
          .ok next.session ∧
        next.session.journal =
          watched.session.journal ++
            eventEntries epollin calls connection watched.session.master
              next.session.master := by
  have handles :
      ∃ after,
        tcpdnsWorkerHandleEvent calls id epollin
            watched.session.master = .ok after ∧
          Handled calls epollin watched.session.master ids id
            { proxy := some conn
              buffer := (readsOf id watched.session.journal).flatten
              done := false }
            conn connection after :=
    waiting.pair.handles
  rcases handles with ⟨after, called, _⟩
  have stepped :
      tcpdnsStep conf watched.session (.event conn epollin calls) =
        .ok
          { master := after
            journal :=
              watched.session.journal ++
                eventEntries epollin calls connection
                  watched.session.master after } := by
    simp only [tcpdnsStep, waiting.pair.present, waiting.user, called]
  have permitted :
      (deliverySystem conf id start).enabled watched
        (.event conn epollin calls) :=
    ⟨⟨connection, waiting.pair.present⟩, waiting.interested calls,
      undisturbed⟩
  have moved :
      (deliverySystem conf id start).step watched
          (.event conn epollin calls) =
        .ok
          { session :=
              { master := after
                journal :=
                  watched.session.journal ++
                    eventEntries epollin calls connection
                      watched.session.master after }
            events :=
              if showsBytes id watched.session
                  (.event conn epollin calls) then
                watched.events + 1
              else
                watched.events } := by
    simp only [deliverySystem, deliveryStep, stepped]
  exact ⟨_, .next reachable permitted moved, stepped, rfl⟩

/-- How much an event brings. -/
theorem Waiting.length_newRead
    (waiting : Waiting reply id conn session ids connection)
    {more : Nat} (shows : calls.arrival = .shows more) :
    (newRead epollin calls connection
        { proxy := some conn
          buffer := (readsOf id session.journal).flatten
          done := false }).length =
      min (bufferSize - (readsOf id session.journal).flatten.length)
        (min (more + 1) connection.unread.length) := by
  have reads : Reads epollin := by decide
  simp only [newRead, if_pos reads, workerRecv, Proxy.recv,
    waiting.forwarding, shows, Arrival.answer, List.length_take]

/-- A worker whose buffer is full takes the next event for the end. -/
theorem exists_lost_of_full
    {watched : Watched}
    (some_byte : 1 ≤ reply.length) (short : reply.length < 2 ^ 16)
    (long : bufferSize < reply.length + 2)
    (reachable : (deliverySystem conf id start).Reachable watched)
    (kept : Kept watched.session ids)
    (waiting : Waiting reply id conn watched.session ids connection)
    (full :
      (readsOf id watched.session.journal).flatten.length =
        bufferSize) :
    ∃ lost,
      (deliverySystem conf id start).Reachable lost ∧
        ¬ Served reply id lost := by
  rcases exists_told reachable waiting
      (@Waiting.undisturbed _ _ _ _ _ _ (sampleCalls 0) waiting kept
        some_byte short long 0 rfl) with
    ⟨next, reached, stepped, journal⟩
  have nothing :
      workerRecv (sampleCalls 0) connection
          { proxy := some conn
            buffer := (readsOf id watched.session.journal).flatten
            done := false } = .data [] := by
    simp only [workerRecv, Proxy.recv, waiting.forwarding, full,
      sampleCalls, Arrival.answer, Nat.sub_self, List.take_zero]
  have called := called_of_step waiting.pair.present stepped
  rw [waiting.user] at called
  have found := waiting.pair.found
  rw [← waiting.user] at found
  rcases of_eventEntries id epollin (sampleCalls 0) next.session.master
      found with ⟨_, answers⟩
  refine ⟨next, reached, not_served_of_gone ?_ ?_⟩
  · exact gone_of_nothing waiting.pair (by decide) nothing called
  · rw [journal, answersOf_append, answers, waiting.never]
    rfl

/-- A message which does not fit can be lost in two events. -/
theorem exists_lost
    (some_byte : 1 ≤ reply.length) (short : reply.length < 2 ^ 16)
    (long : bufferSize < reply.length + 2)
    (queried : Queried conf id conn (framed reply) start) :
    ∃ lost,
      (deliverySystem conf id start).Reachable lost ∧
        ¬ Served reply id lost := by
  rcases @tracks_queried _ _ _ _ reply _ queried with ⟨tracks, made⟩
  rcases kept_of_reachable queried.reachable with ⟨ids, kept⟩
  rcases queried.connection with
    ⟨connection, present, forwarding, interest, unread⟩
  have user := queried.user kept present
  rcases waiting_of_present tracks kept present user with ⟨_, waiting⟩
  have begun :
      (deliverySystem conf id start).Reachable
        { session := start, events := 0 } :=
    .start rfl
  have undisturbed :=
    @Waiting.undisturbed _ _ _ _ _ _ (sampleCalls (bufferSize - 1))
      waiting kept some_byte short long _ rfl
  rcases exists_told begun waiting undisturbed with
    ⟨next, reached, stepped, journal⟩
  have permitted :
      tcpdnsEnabled start
        (.event conn epollin (sampleCalls (bufferSize - 1))) :=
    ⟨connection, present⟩
  rcases tracks_step tracks some_byte short kept made permitted
      (waiting.interested _) stepped with ⟨tracked, _⟩
  have full :
      (readsOf id next.session.journal).flatten.length = bufferSize := by
    have size :=
      @Waiting.length_newRead _ _ _ _ _ _ (sampleCalls (bufferSize - 1))
        waiting _ rfl
    rw [journal, waiting.reads, List.length_append, size, queried.unread,
      unread, length_framed]
    simp only [List.flatten_nil, List.length_nil]
    simp only [bufferSize] at long ⊢
    omega
  rcases kept_of_reachable (reachable_watched queried reached) with
    ⟨nextIds, nextKept⟩
  have again := tracked
  cases tracked with
  | waits channel found there owner =>
      rcases waiting_of_present again nextKept there owner with ⟨_, waits⟩
      exact
        exists_lost_of_full some_byte short long reached nextKept waits
          full
  | done found whole never =>
      have complete := whole.long
      omega
  | returned size gone whole once =>
      have complete := whole.long
      omega
  | dropped gone never =>
      exact ⟨next, reached, not_served_of_gone gone never⟩

end Overflow

/--
A message is delivered, in whatever pieces it comes, exactly when its length
and its bytes fit the buffer of the worker.
-/
theorem tcpdns_reply_delivered_iff
    (conf : Nspconf) (id conn : Nat) {reply : List UInt8}
    (some_byte : 1 ≤ reply.length) (short : reply.length ≤ 65535)
    {start : Session}
    (queried : Queried conf id conn (framed reply) start) :
    (∀ watched, (deliverySystem conf id start).Reachable watched →
      Served reply id watched) ↔
      reply.length + 2 ≤ 4096 := by
  constructor
  · intro served
    apply Classical.byContradiction
    intro long
    have lost :=
      exists_lost some_byte (Nat.lt_succ_of_le short)
        (Nat.lt_of_not_le long) queried
    rcases lost with ⟨watched, reachable, unserved⟩
    exact unserved (served watched reachable)
  · intro fits watched reachable
    have watches :=
      watches_of_reachable some_byte (Nat.lt_succ_of_le short) fits
        queried reachable
    exact watches.served

/-- A query which was sent to a nameserver with this stream. -/
theorem exists_queried (stream : List UInt8) :
    ∃ start, Queried sampleConf 0 0 stream start := by
  have ran :
      ∃ start,
        (tcpdnsSystem sampleConf).replay
            { master := tcpdnsCreate, journal := [] }
            (queryRun stream) = some start ∧
          start.master.workers.data 0 =
            some { proxy := some 0, buffer := [], done := false } ∧
          start.master.connections 0 =
            some
              { proxy := { phase := .forwarding, events := epollin }
                refcnt := 1
                userp := 0
                unread := stream } ∧
          readsOf 0 start.journal = [] :=
    ⟨_, rfl, rfl, rfl, rfl⟩
  rcases ran with ⟨start, replayed, worker, present, unread⟩
  exact
    ⟨start, System.Reachable.replay (.start rfl) replayed, worker,
      ⟨_, present, rfl, rfl, rfl⟩, unread⟩

/-- The message comes in three pieces. -/
def samplePieces : List Turn :=
  [.event 0 epollin (sampleCalls 0), .event 0 epollin (sampleCalls 1),
    .event 0 epollin (sampleCalls 1)]

/-- The worker was shown bytes three times, and has the message. -/
def sampleDelivered (watched : Watched) : Bool :=
  decide
    (watched.events = 3 ∧
      watched.session.master.workers.data 0 =
        some { proxy := none, buffer := framed [7, 8, 9], done := true })

/-- A query, and the pieces of its answer. -/
theorem exists_pieces :
    ∃ start,
      Queried sampleConf 0 0 (framed [7, 8, 9]) start ∧
        ∃ watched,
          (deliverySystem sampleConf 0 start).Reachable watched ∧
            sampleDelivered watched = true := by
  have passes :
      (((tcpdnsSystem sampleConf).replay
          { master := tcpdnsCreate, journal := [] }
          (queryRun (framed [7, 8, 9]))).bind fun session =>
        if queriedTest (framed [7, 8, 9]) session then
          (deliverySystem sampleConf 0 session).replay
            { session := session, events := 0 } samplePieces
        else
          none).map sampleDelivered = some true := by
    decide +kernel
  rcases Option.map_eq_some_iff.mp passes with ⟨last, ran, tested⟩
  rcases Option.bind_eq_some_iff.mp ran with ⟨first, asked, rest⟩
  split at rest
  · next queried =>
      rcases of_decide_eq_true queried with ⟨worker, present, unread⟩
      have reachable : (tcpdnsSystem sampleConf).Reachable first :=
        System.Reachable.replay (.start rfl) asked
      exact
        ⟨first,
          ⟨reachable, worker, ⟨_, present, rfl, rfl, rfl⟩, unread⟩, last,
          System.Reachable.replay (.start rfl) rest, tested⟩
  · cases rest

theorem tcpdns_reply_delivered_short :
    ∃ start,
      Queried sampleConf 0 0 (framed [7, 8, 9]) start ∧
        (∀ watched,
          (deliverySystem sampleConf 0 start).Reachable watched →
            Served [7, 8, 9] 0 watched) ∧
        ∃ watched,
          (deliverySystem sampleConf 0 start).Reachable watched ∧
            watched.events = 3 ∧
            watched.session.master.workers.data 0 =
              some
                { proxy := none
                  buffer := framed [7, 8, 9]
                  done := true } := by
  rcases exists_pieces with ⟨start, queried, watched, reachable, shown⟩
  refine ⟨start, queried, ?_, watched, reachable, ?_⟩
  · exact
      (tcpdns_reply_delivered_iff sampleConf 0 0 (by decide) (by decide)
        queried).mpr (by decide)
  · exact of_decide_eq_true shown

/-- A message of 4095 bytes is lost. -/
theorem tcpdns_reply_lost :
    ∃ start,
      Queried sampleConf 0 0 (framed (List.replicate 4095 7)) start ∧
        ¬ ∀ watched,
          (deliverySystem sampleConf 0 start).Reachable watched →
            Served (List.replicate 4095 7) 0 watched := by
  rcases exists_queried (framed (List.replicate 4095 7)) with
    ⟨start, queried⟩
  refine ⟨start, queried, ?_⟩
  intro served
  have size : (List.replicate 4095 (7 : UInt8)).length = 4095 :=
    List.length_replicate
  have some_byte : 1 ≤ (List.replicate 4095 (7 : UInt8)).length := by
    rw [size]
    decide
  have short : (List.replicate 4095 (7 : UInt8)).length < 2 ^ 16 := by
    rw [size]
    decide
  have long :
      bufferSize < (List.replicate 4095 (7 : UInt8)).length + 2 := by
    rw [size]
    decide
  rcases exists_lost some_byte short long queried with
    ⟨watched, reachable, unserved⟩
  exact unserved (served watched reachable)

end Nsproxy.Tcpdns.Delivery
