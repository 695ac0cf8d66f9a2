import Mathlib.Data.List.Perm.Basic
import Mathlib.Tactic.Common
import Nsproxy.Lib.Linked
import Nsproxy.Lib.Transition
import Nsproxy.Tcpdns.Workers

/-!
# Answers are neither lost nor duplicated

`Sound` ties the parts of a master together: the list of the workers, the
counter of the `eventfd`, the flag `done`, and the connections with their
users.  An event reaches a worker through its connection alone, and `Handled`
lists what the event comes to.

The journal of a run tells which workers were marked done and which were
returned.  The workers which are marked and not yet returned are those in the
list, and there are as many of them as the counter says.
-/

namespace Nsproxy.Tcpdns.Answers

open Nsproxy.Conf
open Nsproxy.Lib.Linked
open Nsproxy.Lib.Transition
open Nsproxy.Lwip.Opts
open Nsproxy.Skutils
open Nsproxy.Handshake.Socket
open Nsproxy.Tcpdns.Workers

/-! ## The invariant -/

/-- The worker is in memory, and it is marked done. -/
def isDone (master : Master) (id : Nat) : Bool :=
  (master.workers.data id).any (·.done)

/-- The parts of a master agree; `ids` is the list of its workers. -/
structure Sound (master : Master) (ids : List Nat) : Prop where
  listed : Holds master.workers ids
  few : ids.length ≤ master.allocated
  young : ∀ id ∈ ids, id < master.allocated
  semaphore : master.evfd.semaphore = true
  counted : master.evfd.counter = (ids.filter (isDone master)).length
  fits :
    ∀ id worker, master.workers.data id = some worker →
      worker.buffer.length ≤ bufferSize
  idle :
    ∀ id worker, master.workers.data id = some worker →
      worker.done = true →
      worker.proxy = none ∧ 2 ≤ worker.buffer.length
  busy :
    ∀ id worker, master.workers.data id = some worker →
      worker.done = false →
      ∃ conn connection,
        worker.proxy = some conn ∧
          master.connections conn = some connection ∧
          connection.userp = id ∧ connection.refcnt = 1
  live :
    ∀ conn connection, master.connections conn = some connection →
      conn < master.allocated ∧
        ∃ worker,
          master.workers.data connection.userp = some worker ∧
            worker.proxy = some conn

theorem sound_tcpdnsCreate : Sound tcpdnsCreate [] where
  listed := holds_empty
  few := Nat.le_refl 0
  young := by
    intro id impossible
    cases impossible
  semaphore := rfl
  counted := rfl
  fits := by
    intro id worker impossible
    cases impossible
  idle := by
    intro id worker impossible
    cases impossible
  busy := by
    intro id worker impossible
    cases impossible
  live := by
    intro conn connection impossible
    cases impossible

/-- The user of a connection is a worker which is not done. -/
theorem Sound.user
    {master : Master} {ids : List Nat} (sound : Sound master ids)
    {conn : Nat} {connection : Connection}
    (present : master.connections conn = some connection) :
    ∃ worker,
      master.workers.data connection.userp = some worker ∧
        worker.proxy = some conn ∧ worker.done = false ∧
        connection.refcnt = 1 := by
  rcases (sound.live conn connection present).2 with
    ⟨worker, found, proxy⟩
  cases marked : worker.done with
  | true =>
      rw [(sound.idle _ worker found marked).1] at proxy
      cases proxy
  | false =>
      rcases sound.busy _ worker found marked with
        ⟨other, same, same_conn, there, _, single⟩
      rw [proxy] at same_conn
      cases same_conn
      rw [present] at there
      cases there
      exact ⟨worker, found, proxy, marked, single⟩

theorem Sound.mem
    {master : Master} {ids : List Nat} (sound : Sound master ids)
    {id : Nat} {worker : Worker}
    (found : master.workers.data id = some worker) :
    id ∈ ids := by
  rw [sound.listed.mem_iff, found]
  rfl

/-! ## What an event comes to -/

/-- The memory after a change of one worker and one connection. -/
structure Rewritten
    (before after : Master) (id : Nat) (worker : Option Worker)
    (conn : Nat) (connection : Option Connection) : Prop where
  worker : after.workers.data id = worker
  workers :
    ∀ other, other ≠ id →
      after.workers.data other = before.workers.data other
  connection : after.connections conn = connection
  connections :
    ∀ other, other ≠ conn →
      after.connections other = before.connections other
  semaphore : after.evfd.semaphore = before.evfd.semaphore
  allocated : after.allocated = before.allocated

/-- The bytes hold the whole message. -/
def Complete (buffer : List UInt8) : Prop :=
  2 < buffer.length ∧ messageSize buffer + 2 ≤ buffer.length

/-- What an event of a connection comes to. -/
inductive Handled
    (calls : WorkerCalls) (event : EventMask) (before : Master)
    (ids : List Nat) (id : Nat) (worker : Worker) (conn : Nat)
    (connection : Connection) : Master → Prop where
  /-- There is nothing to do. -/
  | ignored
      (quiet :
        event.meets epollin = true →
          workerRecv calls connection worker = .err .eagain) :
      Handled calls event before ids id worker conn connection before
  /-- The worker is destroyed. -/
  | dropped
      (rewritten : Rewritten before after id none conn none)
      (listed : Holds after.workers (ids.erase id))
      (evfd : after.evfd = before.evfd) :
      Handled calls event before ids id worker conn connection after
  /-- A part of the query is sent, or the rest of it. -/
  | wrote
      (output :
        event.meets epollin = false ∧ event.meets epollout = true)
      (rewritten :
        Rewritten before after id (some { worker with buffer := rest })
          conn (some { connection with proxy := proxy }))
      (shorter : rest.length ≤ worker.buffer.length)
      (listed : Holds after.workers ids)
      (evfd : after.evfd = before.evfd) :
      Handled calls event before ids id worker conn connection after
  /-- Bytes arrive, and more are needed. -/
  | read
      (input :
        event.meets epollerr = false ∧ event.meets epollin = true)
      (arrived :
        workerRecv calls connection worker = .data (byte :: more))
      (incomplete : ¬ Complete (worker.buffer ++ byte :: more))
      (rewritten :
        Rewritten before after id
          (some { worker with buffer := worker.buffer ++ byte :: more })
          conn
          (some
            { connection with
              unread := connection.unread.drop (more.length + 1) }))
      (listed : Holds after.workers ids)
      (evfd : after.evfd = before.evfd) :
      Handled calls event before ids id worker conn connection after
  /-- The message is complete, and the master is noticed. -/
  | finished
      (input :
        event.meets epollerr = false ∧ event.meets epollin = true)
      (arrived :
        workerRecv calls connection worker = .data (byte :: more))
      (complete : Complete (worker.buffer ++ byte :: more))
      (rewritten :
        Rewritten before after id
          (some
            { proxy := none
              buffer := worker.buffer ++ byte :: more
              done := true })
          conn none)
      (listed : Holds after.workers ids)
      (evfd : after.evfd.counter = before.evfd.counter + 1) :
      Handled calls event before ids id worker conn connection after

/-- An event leaves the other workers and connections alone. -/
theorem Handled.others
    {calls : WorkerCalls} {event : EventMask} {before after : Master}
    {ids : List Nat} {id : Nat} {worker : Worker} {conn : Nat}
    {connection : Connection}
    (handled :
      Handled calls event before ids id worker conn connection after) :
    (∀ other, other ≠ id →
      after.workers.data other = before.workers.data other) ∧
      ∀ other, other ≠ conn →
        after.connections other = before.connections other := by
  cases handled with
  | ignored quiet => exact ⟨fun _ _ => rfl, fun _ _ => rfl⟩
  | dropped rewritten =>
      exact ⟨rewritten.workers, rewritten.connections⟩
  | wrote output rewritten =>
      exact ⟨rewritten.workers, rewritten.connections⟩
  | read input arrived incomplete rewritten =>
      exact ⟨rewritten.workers, rewritten.connections⟩
  | finished input arrived complete rewritten =>
      exact ⟨rewritten.workers, rewritten.connections⟩

section Destroy

variable {master : Master} {ids : List Nat} {id : Nat} {worker : Worker}

theorem unlinkWorker_spec
    (master : Master) (listed : Holds master.workers ids)
    (member : id ∈ ids) :
    ∃ after,
      unlinkWorker id master = .ok after ∧
        Holds after.workers (ids.erase id) ∧
        after.workers.data id = none ∧
        (∀ other, other ≠ id →
          after.workers.data other = master.workers.data other) ∧
        after.connections = master.connections ∧
        after.evfd = master.evfd ∧ after.allocated = master.allocated := by
  rcases listed.remove member with ⟨workers, removed, kept, gone, others⟩
  refine
    ⟨{ master with workers := workers }, ?_, kept, gone, others, rfl, rfl,
      rfl⟩
  simp only [unlinkWorker, removed]

theorem destroy_idle
    (master : Master) (listed : Holds master.workers ids)
    (member : id ∈ ids)
    (found : master.workers.data id = some worker)
    (closed : worker.proxy = none) :
    ∃ after,
      tcpdnsWorkerDestroy id master = .ok after ∧
        Holds after.workers (ids.erase id) ∧
        after.workers.data id = none ∧
        (∀ other, other ≠ id →
          after.workers.data other = master.workers.data other) ∧
        after.connections = master.connections ∧
        after.evfd = master.evfd ∧ after.allocated = master.allocated := by
  simp only [tcpdnsWorkerDestroy, found, closed]
  exact unlinkWorker_spec master listed member

theorem proxyPut_last
    {conn : Nat} {connection : Connection}
    (present : master.connections conn = some connection)
    (single : connection.refcnt = 1) :
    proxyPut conn master = .ok (master.setConnection conn none) := by
  simp only [proxyPut, present, single, if_true]

theorem destroy_busy
    {conn : Nat} {connection : Connection}
    (listed : Holds master.workers ids) (member : id ∈ ids)
    (found : master.workers.data id = some worker)
    (proxy : worker.proxy = some conn)
    (present : master.connections conn = some connection)
    (single : connection.refcnt = 1) :
    ∃ after,
      tcpdnsWorkerDestroy id master = .ok after ∧
        Rewritten master after id none conn none ∧
        Holds after.workers (ids.erase id) ∧
        after.evfd = master.evfd := by
  rcases unlinkWorker_spec (master.setConnection conn none) listed
      member with
    ⟨after, done_, kept, gone, others, connections, evfd, allocated⟩
  refine ⟨after, ?_, ⟨gone, others, ?_, ?_, ?_, allocated⟩, kept, evfd⟩
  · simp only [tcpdnsWorkerDestroy, found, proxy,
      proxyPut_last present single]
    exact done_
  · rw [connections]
    exact if_pos rfl
  · intro other different
    rw [connections]
    exact if_neg different
  · rw [evfd]
    rfl

theorem setWorker_spec
    (master : Master) (listed : Holds master.workers ids)
    (member : id ∈ ids) (next : Worker) :
    ∃ after,
      master.setWorker id next = .ok after ∧
        Holds after.workers ids ∧
        after.workers.data id = some next ∧
        (∀ other, other ≠ id →
          after.workers.data other = master.workers.data other) ∧
        after.connections = master.connections ∧
        after.evfd = master.evfd ∧ after.allocated = master.allocated := by
  rcases listed.setData member next with ⟨workers, set, kept, new, others⟩
  refine
    ⟨{ master with workers := workers }, ?_, kept, new, others, rfl, rfl,
      rfl⟩
  simp only [Master.setWorker, set]

end Destroy

section Events

variable {calls : WorkerCalls} {event : EventMask} {before : Master}
  {ids : List Nat} {id : Nat} {worker : Worker} {conn : Nat}
  {connection : Connection}

/-- The worker, its connection, and that they belong together. -/
structure Pair
    (before : Master) (ids : List Nat) (id : Nat) (worker : Worker)
    (conn : Nat) (connection : Connection) : Prop where
  listed : Holds before.workers ids
  member : id ∈ ids
  found : before.workers.data id = some worker
  proxy : worker.proxy = some conn
  present : before.connections conn = some connection
  single : connection.refcnt = 1

theorem Pair.drops
    (pair : Pair before ids id worker conn connection) :
    ∃ after,
      tcpdnsWorkerDestroy id before = .ok after ∧
        Handled calls event before ids id worker conn connection
          after := by
  rcases destroy_busy pair.listed pair.member pair.found pair.proxy
      pair.present pair.single with
    ⟨after, destroyed, rewritten, listed, evfd⟩
  exact ⟨after, destroyed, .dropped rewritten listed evfd⟩

/-- The worker is marked before the master is noticed. -/
theorem Pair.marks
    (pair : Pair before ids id worker conn connection)
    (filled : Worker) (unread : List UInt8) :
    ∃ marked,
      finishWorker id conn filled
          (before.setConnection conn
            (some { connection with unread := unread })) =
        (match marked.evfd.write 1 with
          | none => tcpdnsWorkerDestroy id marked
          | some evfd => .ok { marked with evfd := evfd }) ∧
        Rewritten before marked id
          (some { filled with proxy := none, done := true }) conn none ∧
        Holds marked.workers ids ∧ marked.evfd = before.evfd := by
  have put :
      proxyPut conn
          (before.setConnection conn
            (some { connection with unread := unread })) =
        .ok
          ((before.setConnection conn
            (some { connection with unread := unread })).setConnection
              conn none) :=
    proxyPut_last (if_pos rfl) pair.single
  rcases setWorker_spec
      ((before.setConnection conn
        (some { connection with unread := unread })).setConnection
          conn none)
      pair.listed pair.member
      { filled with proxy := none, done := true } with
    ⟨marked, set, listed, new, others, connections, evfd, allocated⟩
  refine
    ⟨marked, ?_, ⟨new, others, ?_, ?_, ?_, allocated⟩, listed, evfd⟩
  · cases posted : marked.evfd.write 1 with
    | none => simp only [finishWorker, put, set, posted]
    | some counted => simp only [finishWorker, put, set, posted]
  · rw [connections]
    exact if_pos rfl
  · intro other different
    rw [connections]
    exact (if_neg different).trans (if_neg different)
  · rw [evfd]
    rfl

/-- A complete message, whether the master can be noticed or not. -/
theorem Pair.finishes
    (pair : Pair before ids id worker conn connection)
    (input : event.meets epollerr = false ∧ event.meets epollin = true)
    {byte : UInt8} {more : List UInt8}
    (arrived : workerRecv calls connection worker = .data (byte :: more))
    (complete : Complete (worker.buffer ++ byte :: more))
    {unread : List UInt8} :
    ∃ after,
      finishWorker id conn
          { worker with buffer := worker.buffer ++ byte :: more }
          (before.setConnection conn
            (some { connection with unread := unread })) = .ok after ∧
        Handled calls event before ids id worker conn connection
          after := by
  rcases pair.marks { worker with buffer := worker.buffer ++ byte :: more }
      unread with ⟨marked, finish, rewritten, listed, evfd⟩
  cases posted : marked.evfd.write 1 with
  | none =>
      rw [posted] at finish
      rcases destroy_idle marked listed pair.member rewritten.worker rfl
        with
        ⟨after, destroyed, kept, gone, same, sameConnections, sameEvfd,
          sameAllocated⟩
      refine
        ⟨after, finish.trans destroyed,
          .dropped ⟨gone, ?_, ?_, ?_, ?_, ?_⟩ kept ?_⟩
      · intro other different
        rw [same other different]
        exact rewritten.workers other different
      · rw [sameConnections]
        exact rewritten.connection
      · intro other different
        rw [sameConnections]
        exact rewritten.connections other different
      · rw [sameEvfd]
        exact rewritten.semaphore
      · rw [sameAllocated]
        exact rewritten.allocated
      · exact sameEvfd.trans evfd
  | some counted =>
      rw [posted] at finish
      have counts :
          counted =
            { before.evfd with counter := before.evfd.counter + 1 } := by
        rw [evfd, Eventfd.write] at posted
        split at posted
        · cases posted
          rfl
        · cases posted
      refine
        ⟨_, finish,
          .finished input arrived complete
            ⟨rewritten.worker, rewritten.workers, rewritten.connection,
              rewritten.connections, ?_, rewritten.allocated⟩
            listed ?_⟩
      · rw [counts]
      · rw [counts]

theorem Pair.inputs
    (pair : Pair before ids id worker conn connection)
    (input : event.meets epollerr = false ∧ event.meets epollin = true) :
    ∃ after,
      workerInput calls id conn worker connection before = .ok after ∧
        Handled calls event before ids id worker conn connection
          after := by
  simp only [workerInput]
  cases arrived : workerRecv calls connection worker with
  | err errno =>
      simp only []
      split
      · next again =>
          rw [again] at arrived
          exact ⟨before, rfl, .ignored fun _ => arrived⟩
      · exact pair.drops
  | data bytes =>
      cases bytes with
      | nil => exact pair.drops
      | cons byte more =>
          simp only []
          split
          · next complete =>
              exact pair.finishes input arrived complete
          · next incomplete =>
              rcases setWorker_spec
                  (before.setConnection conn
                    (some
                      { connection with
                        unread :=
                          connection.unread.drop (more.length + 1) }))
                  pair.listed pair.member
                  { worker with
                    buffer := worker.buffer ++ byte :: more } with
                ⟨after, set, listed, new, others, connections, evfd,
                  allocated⟩
              refine
                ⟨after, set,
                  .read input arrived incomplete
                    ⟨new, others, ?_, ?_, ?_, allocated⟩ listed evfd⟩
              · rw [connections]
                exact if_pos rfl
              · intro other different
                rw [connections]
                exact if_neg different
              · rw [evfd]
                rfl

theorem Pair.outputs
    (pair : Pair before ids id worker conn connection)
    (output :
      event.meets epollin = false ∧ event.meets epollout = true) :
    ∃ after,
      workerOutput calls id conn worker connection before = .ok after ∧
        Handled calls event before ids id worker conn connection
          after := by
  have quiet :
      event.meets epollin = true →
        workerRecv calls connection worker = .err .eagain := by
    intro impossible
    rw [output.1] at impossible
    cases impossible
  simp only [workerOutput]
  cases sent :
      connection.proxy.send calls.send worker.buffer.length with
  | error errno =>
      simp only []
      split
      · exact ⟨before, rfl, .ignored quiet⟩
      · exact pair.drops
  | ok count =>
      cases count with
      | zero => exact pair.drops
      | succ more =>
          rcases setWorker_spec before pair.listed pair.member
              { worker with
                buffer := worker.buffer.drop (more + 1) } with
            ⟨after, set, listed, new, others, connections, evfd,
              allocated⟩
          have shorter :
              (worker.buffer.drop (more + 1)).length ≤
                worker.buffer.length := by
            rw [List.length_drop]
            exact Nat.sub_le _ _
          simp only [set]
          split
          · refine
              ⟨_, rfl,
                .wrote output ⟨new, others, if_pos rfl, ?_, ?_, allocated⟩
                  shorter listed evfd⟩
            · intro other different
              rw [← connections]
              exact if_neg different
            · exact congrArg Eventfd.semaphore evfd
          · have rewritten :
                Rewritten before after id
                  (some
                    { worker with
                      buffer := worker.buffer.drop (more + 1) })
                  conn
                  (some { connection with proxy := connection.proxy }) := by
              refine ⟨new, others, ?_, ?_, ?_, allocated⟩
              · rw [connections]
                exact pair.present
              · intro other _
                rw [connections]
              · exact congrArg Eventfd.semaphore evfd
            exact ⟨_, rfl, .wrote output rewritten shorter listed evfd⟩

/-- Every event of a connection is handled, and no freed memory is met. -/
theorem Pair.handles
    (pair : Pair before ids id worker conn connection) :
    ∃ after,
      tcpdnsWorkerHandleEvent calls id event before = .ok after ∧
        Handled calls event before ids id worker conn connection
          after := by
  simp only [tcpdnsWorkerHandleEvent, pair.found]
  by_cases err : event.meets epollerr = true
  · rw [if_pos err]
    exact pair.drops
  · rw [if_neg err]
    by_cases input : event.meets epollin = true
    · rw [if_pos (.inl input)]
      simp only [pair.proxy, pair.present, if_pos input]
      exact pair.inputs ⟨Bool.eq_false_iff.mpr err, input⟩
    · by_cases output : event.meets epollout = true
      · rw [if_pos (.inr output)]
        simp only [pair.proxy, pair.present, if_neg input]
        exact pair.outputs ⟨Bool.eq_false_iff.mpr input, output⟩
      · rw [if_neg (not_or.mpr ⟨input, output⟩)]
        exact ⟨before, rfl, .ignored fun found => absurd found input⟩

end Events

/-! ## Who is done -/

section Counting

variable {before after : Master} {ids : List Nat} {id : Nat}

/-- The workers which are done, but for one. -/
theorem perm_filter_isDone
    (master : Master) (member : id ∈ ids) :
    (ids.filter (isDone master)).Perm
      ((if isDone master id then [id] else []) ++
        (ids.erase id).filter (isDone master)) := by
  refine ((List.perm_cons_erase member).filter _).trans ?_
  cases marked : isDone master id with
  | true => rw [List.filter_cons_of_pos marked, if_pos rfl]; rfl
  | false =>
      rw [List.filter_cons_of_neg (Bool.not_eq_true _ ▸ marked)]
      rfl

/-- Whether the others are done depends on the others alone. -/
theorem filter_isDone_erase
    (distinct : ids.Nodup)
    (others :
      ∀ other, other ≠ id →
        after.workers.data other = before.workers.data other) :
    (ids.erase id).filter (isDone after) =
      (ids.erase id).filter (isDone before) := by
  apply List.filter_congr
  intro other present
  have different : other ≠ id := (distinct.mem_erase_iff.mp present).1
  rw [isDone, isDone, others other different]

theorem isDone_of_data
    {master : Master} {worker : Worker}
    (found : master.workers.data id = some worker) :
    isDone master id = worker.done := by
  rw [isDone, found]
  rfl

end Counting

/-! ## Events keep the invariant -/

/-- The new worker and the new connection agree. -/
structure Agrees
    (id : Nat) (worker : Option Worker) (conn : Nat)
    (connection : Option Connection) : Prop where
  fits :
    ∀ next, worker = some next → next.buffer.length ≤ bufferSize
  idle :
    ∀ next, worker = some next → next.done = true →
      next.proxy = none ∧ 2 ≤ next.buffer.length
  busy :
    ∀ next, worker = some next → next.done = false →
      next.proxy = some conn ∧
        ∃ other, connection = some other ∧ other.userp = id ∧
          other.refcnt = 1
  live :
    ∀ other, connection = some other →
      other.userp = id ∧
        ∃ next, worker = some next ∧ next.proxy = some conn

/-- A change of a worker and its connection which agree. -/
theorem Sound.rewrite
    {before after : Master} {ids next : List Nat} {id conn : Nat}
    {worker : Worker} {connection : Connection}
    {newWorker : Option Worker} {newConnection : Option Connection}
    (sound : Sound before ids)
    (pair : Pair before ids id worker conn connection)
    (user : connection.userp = id)
    (rewritten :
      Rewritten before after id newWorker conn newConnection)
    (agrees : Agrees id newWorker conn newConnection)
    (listed : Holds after.workers next)
    (fewer : next.length ≤ ids.length)
    (subset : ∀ other ∈ next, other ∈ ids)
    (counted :
      after.evfd.counter = (next.filter (isDone after)).length) :
    Sound after next := by
  have apart :
      ∀ other there, before.connections other = some there →
        other ≠ conn → there.userp ≠ id := by
    intro other there present different same
    rcases (sound.live other there present).2 with
      ⟨found, data_, proxy⟩
    rw [same, pair.found] at data_
    cases data_
    rw [pair.proxy] at proxy
    cases proxy
    exact different rfl
  refine
    { listed := listed
      few := ?_
      young := ?_
      semaphore := rewritten.semaphore.trans sound.semaphore
      counted := counted
      fits := ?_
      idle := ?_
      busy := ?_
      live := ?_ }
  · rw [rewritten.allocated]
    exact Nat.le_trans fewer sound.few
  · intro other present
    rw [rewritten.allocated]
    exact sound.young other (subset other present)
  · intro other found data_
    by_cases same : other = id
    · subst same
      exact agrees.fits found (rewritten.worker.symm.trans data_)
    · rw [rewritten.workers other same] at data_
      exact sound.fits other found data_
  · intro other found data_
    by_cases same : other = id
    · subst same
      exact agrees.idle found (rewritten.worker.symm.trans data_)
    · rw [rewritten.workers other same] at data_
      exact sound.idle other found data_
  · intro other found data_ waiting
    by_cases same : other = id
    · subst same
      rcases agrees.busy found (rewritten.worker.symm.trans data_)
          waiting with
        ⟨proxy, there, present, userp, single⟩
      exact
        ⟨conn, there, proxy, rewritten.connection.trans present, userp,
          single⟩
    · rw [rewritten.workers other same] at data_
      rcases sound.busy other found data_ waiting with
        ⟨channel, there, proxy, present, userp, single⟩
      refine ⟨channel, there, proxy, ?_, userp, single⟩
      rw [rewritten.connections channel]
      · exact present
      · rintro rfl
        rw [pair.present] at present
        cases present
        exact same (userp.symm.trans user)
  · intro channel there present
    rw [rewritten.allocated]
    by_cases same : channel = conn
    · subst same
      rcases agrees.live there (rewritten.connection.symm.trans present)
        with ⟨userp, found, data_, proxy⟩
      refine ⟨(sound.live _ connection pair.present).1, found, ?_, proxy⟩
      rw [userp, rewritten.worker]
      exact data_
    · rw [rewritten.connections channel same] at present
      rcases sound.live channel there present with
        ⟨young, found, data_, proxy⟩
      refine ⟨young, found, ?_, proxy⟩
      rw [rewritten.workers _ (apart channel there present same)]
      exact data_

/-- The invariant after an event, and who was done by it. -/
structure Moved
    (before after : Master) (ids next : List Nat) (id : Nat) : Prop where
  sound : Sound after next
  subset : ∀ other ∈ next, other ∈ ids
  allocated : after.allocated = before.allocated
  marked :
    (next.filter (isDone after)).Perm
      ((if isDone after id then [id] else []) ++
        ids.filter (isDone before))

section Moves

variable {calls : WorkerCalls} {event : EventMask}
  {before after : Master} {ids : List Nat} {id : Nat} {worker : Worker}
  {conn : Nat} {connection : Connection}

/-- A worker which stays in the list. -/
theorem marked_of_rewritten
    {newWorker : Worker} {newConnection : Option Connection}
    (pair : Pair before ids id worker conn connection)
    (waiting : worker.done = false)
    (rewritten :
      Rewritten before after id (some newWorker) conn newConnection) :
    (ids.filter (isDone after)).Perm
      ((if isDone after id then [id] else []) ++
        ids.filter (isDone before)) := by
  have old := perm_filter_isDone before pair.member
  rw [isDone_of_data pair.found, waiting] at old
  have kept := filter_isDone_erase pair.listed.distinct rewritten.workers
  refine (perm_filter_isDone after pair.member).trans ?_
  rw [kept]
  exact List.Perm.append_left _ old.symm

theorem moved_same
    (sound : Sound before ids)
    (pair : Pair before ids id worker conn connection)
    (waiting : worker.done = false) :
    Moved before before ids ids id where
  sound := sound
  subset := fun _ present => present
  allocated := rfl
  marked := by
    rw [isDone_of_data pair.found, waiting]
    exact List.Perm.refl _

theorem moved_dropped
    (sound : Sound before ids)
    (pair : Pair before ids id worker conn connection)
    (user : connection.userp = id) (waiting : worker.done = false)
    (rewritten : Rewritten before after id none conn none)
    (listed : Holds after.workers (ids.erase id))
    (evfd : after.evfd = before.evfd) :
    Moved before after ids (ids.erase id) id := by
  have gone : isDone after id = false := by
    rw [isDone, rewritten.worker]
    rfl
  have marked :
      ((ids.erase id).filter (isDone after)).Perm
        (ids.filter (isDone before)) := by
    have old := perm_filter_isDone before pair.member
    rw [isDone_of_data pair.found, waiting] at old
    rw [filter_isDone_erase pair.listed.distinct rewritten.workers]
    exact old.symm
  refine ⟨?_, ?_, rewritten.allocated, ?_⟩
  · refine sound.rewrite pair user rewritten ?_ listed
      List.length_erase_le (fun other => List.mem_of_mem_erase) ?_
    · constructor
      · intro next impossible
        cases impossible
      · intro next impossible
        cases impossible
      · intro next impossible
        cases impossible
      · intro other impossible
        cases impossible
    · rw [evfd, marked.length_eq]
      exact sound.counted
  · intro other
    exact List.mem_of_mem_erase
  · rw [gone]
    exact marked

/-- A worker which goes on with its connection. -/
theorem moved_rewritten
    {newWorker : Worker} {newConnection : Connection}
    (sound : Sound before ids)
    (pair : Pair before ids id worker conn connection)
    (user : connection.userp = id) (waiting : worker.done = false)
    (rewritten :
      Rewritten before after id (some newWorker) conn
        (some newConnection))
    (proxy : newWorker.proxy = worker.proxy)
    (still : newWorker.done = worker.done)
    (fits : newWorker.buffer.length ≤ bufferSize)
    (same_user : newConnection.userp = connection.userp)
    (same_refcnt : newConnection.refcnt = connection.refcnt)
    (listed : Holds after.workers ids)
    (evfd : after.evfd = before.evfd) :
    Moved before after ids ids id := by
  have undone : isDone after id = false := by
    rw [isDone_of_data rewritten.worker, still, waiting]
  have marked := marked_of_rewritten pair waiting rewritten
  refine ⟨?_, fun _ present => present, rewritten.allocated, marked⟩
  refine sound.rewrite pair user rewritten ?_ listed (Nat.le_refl _)
    (fun _ present => present) ?_
  · constructor
    · intro next same
      cases same
      exact fits
    · intro next same marked
      cases same
      rw [still, waiting] at marked
      cases marked
    · intro next same _
      cases same
      exact
        ⟨proxy.trans pair.proxy, newConnection, rfl,
          same_user.trans user, same_refcnt.trans pair.single⟩
    · intro other same
      cases same
      exact
        ⟨same_user.trans user, newWorker, rfl, proxy.trans pair.proxy⟩
  · rw [evfd, marked.length_eq, undone]
    exact sound.counted

theorem moved_finished
    {newWorker : Worker} (sound : Sound before ids)
    (pair : Pair before ids id worker conn connection)
    (user : connection.userp = id) (waiting : worker.done = false)
    (rewritten :
      Rewritten before after id (some newWorker) conn none)
    (closed : newWorker.proxy = none) (done_ : newWorker.done = true)
    (long : 2 ≤ newWorker.buffer.length)
    (fits : newWorker.buffer.length ≤ bufferSize)
    (listed : Holds after.workers ids)
    (evfd : after.evfd.counter = before.evfd.counter + 1) :
    Moved before after ids ids id := by
  have marked := marked_of_rewritten pair waiting rewritten
  refine ⟨?_, fun _ present => present, rewritten.allocated, marked⟩
  refine sound.rewrite pair user rewritten ?_ listed (Nat.le_refl _)
    (fun _ present => present) ?_
  · constructor
    · intro next same
      cases same
      exact fits
    · intro next same _
      cases same
      exact ⟨closed, long⟩
    · intro next same undone
      cases same
      rw [done_] at undone
      cases undone
    · intro other impossible
      cases impossible
  · rw [isDone_of_data rewritten.worker, done_] at marked
    rw [evfd, marked.length_eq, sound.counted]
    rfl

/-- What was read fits the buffer. -/
theorem length_workerRecv
    (fits : worker.buffer.length ≤ bufferSize) {bytes : List UInt8}
    (arrived : workerRecv calls connection worker = .data bytes) :
    (worker.buffer ++ bytes).length ≤ bufferSize := by
  have bounded := (Proxy.recv_data arrived).2
  rw [List.length_append]
  omega

theorem moved_of_handled
    (sound : Sound before ids)
    (pair : Pair before ids id worker conn connection)
    (user : connection.userp = id) (waiting : worker.done = false)
    (handled :
      Handled calls event before ids id worker conn connection after) :
    ∃ next, Moved before after ids next id := by
  have fits := sound.fits id worker pair.found
  cases handled with
  | ignored quiet =>
      exact ⟨ids, moved_same sound pair waiting⟩
  | dropped rewritten listed evfd =>
      exact
        ⟨_, moved_dropped sound pair user waiting rewritten listed evfd⟩
  | wrote output rewritten shorter listed evfd =>
      exact
        ⟨ids,
          moved_rewritten sound pair user waiting rewritten rfl rfl
            (Nat.le_trans shorter fits) rfl rfl listed evfd⟩
  | read input arrived incomplete rewritten listed evfd =>
      exact
        ⟨ids,
          moved_rewritten sound pair user waiting rewritten rfl rfl
            (length_workerRecv fits arrived) rfl rfl listed evfd⟩
  | finished input arrived complete rewritten listed evfd =>
      exact
        ⟨ids,
          moved_finished sound pair user waiting rewritten rfl rfl
            (Nat.le_of_lt complete.1) (length_workerRecv fits arrived)
            listed evfd⟩

end Moves

/-! ## Calls of the user -/

/-- `tcpdns_recv` hands over the answer of a worker, and removes the worker. -/
structure Returned
    (before after : Master) (ids : List Nat) (id : Nat)
    (worker : Worker) : Prop where
  first : ids.find? (isDone before) = some id
  found : before.workers.data id = some worker
  done_ : worker.done = true
  listed : Holds after.workers (ids.erase id)
  removed : after.workers.data id = none
  others :
    ∀ other, other ≠ id →
      after.workers.data other = before.workers.data other
  connections : after.connections = before.connections
  evfd :
    after.evfd =
      { before.evfd with counter := before.evfd.counter - 1 }
  allocated : after.allocated = before.allocated

section Calls

variable {before : Master} {ids : List Nat}

theorem findDone_eq (sound : Sound before ids) :
    findDone before = some (ids.find? (isDone before)) :=
  sound.listed.search _ sound.few

/-- No worker is done, and the `eventfd` says so. -/
theorem tcpdnsRecv_none
    (sound : Sound before ids) (empty : before.evfd.counter = 0)
    (size : Nat) :
    tcpdnsRecv size before = .ok (.error .eagain, before) ∧
      ids.find? (isDone before) = none := by
  constructor
  · simp only [tcpdnsRecv, Eventfd.read, empty, if_true]
  · have nobody := sound.counted
    rw [empty] at nobody
    have empty := List.eq_nil_of_length_eq_zero nobody.symm
    rw [List.filter_eq_nil_iff] at empty
    exact List.find?_eq_none.mpr empty

/-- After a successful read of the `eventfd` there is an answer. -/
theorem tcpdnsRecv_some
    (sound : Sound before ids) (posted : 0 < before.evfd.counter)
    (size : Nat) :
    ∃ id worker after,
      tcpdnsRecv size before =
          .ok (.ok ((worker.buffer.drop 2).take size), after) ∧
        Returned before after ids id worker := by
  have somebody : ids.filter (isDone before) ≠ [] := by
    intro nobody
    have zero := sound.counted
    rw [nobody] at zero
    exact absurd zero (Nat.ne_of_gt posted)
  rcases List.exists_mem_of_ne_nil _ somebody with ⟨some_id, member⟩
  rcases List.mem_filter.mp member with ⟨present, marked⟩
  cases searched : ids.find? (isDone before) with
  | none =>
      exact absurd marked (List.find?_eq_none.mp searched some_id present)
  | some id =>
      have listed : id ∈ ids := List.mem_of_find?_eq_some searched
      have passed : isDone before id = true := List.find?_some searched
      rcases (Option.any_eq_true _ _).mp passed with
        ⟨worker, found, done_⟩
      rcases sound.idle id worker found done_ with ⟨closed, long⟩
      have read :
          before.evfd.read =
            some
              (1,
                { before.evfd with
                  counter := before.evfd.counter - 1 }) := by
        simp only [Eventfd.read, if_neg (Nat.ne_of_gt posted),
          sound.semaphore, if_true]
      rcases destroy_idle
          { before with
            evfd :=
              { before.evfd with counter := before.evfd.counter - 1 } }
          sound.listed listed found closed with
        ⟨after, destroyed, kept, gone, others, connections, evfd,
          allocated⟩
      refine
        ⟨id, worker, after, ?_,
          ⟨searched, found, done_, kept, gone, others, connections, evfd,
            allocated⟩⟩
      have walked :
          findDone
              { before with
                evfd :=
                  { before.evfd with
                    counter := before.evfd.counter - 1 } } =
            some (some id) := by
        rw [← searched]
        exact sound.listed.search _ sound.few
      have one : ¬ (1 : Nat) ≠ 1 := by decide
      simp only [tcpdnsRecv, read, if_neg one, takeAnswer, walked, found,
        if_neg (Nat.not_lt.mpr long), destroyed]

/-- The workers which are done, but for the one which is returned. -/
theorem Returned.marked
    {after : Master} {id : Nat} {worker : Worker}
    (sound : Sound before ids)
    (returned : Returned before after ids id worker) :
    (ids.filter (isDone before)).Perm
      (id :: (ids.erase id).filter (isDone after)) := by
  have split := perm_filter_isDone before (sound.mem returned.found)
  rw [isDone_of_data returned.found, returned.done_] at split
  rw [filter_isDone_erase sound.listed.distinct returned.others]
  exact split

theorem Returned.sound
    {after : Master} {id : Nat} {worker : Worker}
    (sound : Sound before ids)
    (returned : Returned before after ids id worker) :
    Sound after (ids.erase id) := by
  have closed :=
    (sound.idle id worker returned.found returned.done_).1
  have data_kept :
      ∀ {other : Nat} {there : Worker},
        after.workers.data other = some there →
        before.workers.data other = some there := by
    intro other there present
    rw [← returned.others other]
    · exact present
    · rintro rfl
      rw [returned.removed] at present
      cases present
  refine
    { listed := returned.listed
      few := ?_
      young := ?_
      semaphore := ?_
      counted := ?_
      fits := fun other there present =>
        sound.fits other there (data_kept present)
      idle := fun other there present =>
        sound.idle other there (data_kept present)
      busy := ?_
      live := ?_ }
  · rw [returned.allocated]
    exact Nat.le_trans List.length_erase_le sound.few
  · intro other present
    rw [returned.allocated]
    exact sound.young other (List.mem_of_mem_erase present)
  · rw [returned.evfd]
    exact sound.semaphore
  · rw [returned.evfd]
    simp only [sound.counted, (returned.marked sound).length_eq,
      List.length_cons, Nat.add_sub_cancel]
  · intro other there present
    rw [returned.connections]
    exact sound.busy other there (data_kept present)
  · intro conn connection present
    rw [returned.connections] at present
    rw [returned.allocated]
    rcases sound.live conn connection present with
      ⟨young, there, data_, proxy⟩
    refine ⟨young, there, ?_, proxy⟩
    rw [returned.others]
    · exact data_
    · intro same
      rw [same, returned.found] at data_
      cases data_
      rw [closed] at proxy
      cases proxy

end Calls

/-- There is a new worker, with a connection of its own. -/
structure Made
    (before after : Master) (ids : List Nat) (worker : Worker)
    (connection : Connection) : Prop where
  listed : Holds after.workers (before.allocated :: ids)
  new : after.workers.data before.allocated = some worker
  proxy : worker.proxy = some before.allocated
  waiting : worker.done = false
  fits : worker.buffer.length ≤ bufferSize
  workers :
    ∀ other, other ≠ before.allocated →
      after.workers.data other = before.workers.data other
  present : after.connections before.allocated = some connection
  userp : connection.userp = before.allocated
  refcnt : connection.refcnt = 1
  connections :
    ∀ other, other ≠ before.allocated →
      after.connections other = before.connections other
  evfd : after.evfd = before.evfd
  allocated : after.allocated = before.allocated + 1

/-- `tcpdns_send` makes a worker, or nothing. -/
inductive Asked (before : Master) (ids : List Nat) :
    Except Errno Nat × Master → Prop where
  | refused (errno : Errno) : Asked before ids (.error errno, before)
  | made (made : Made before after ids worker connection) :
      Asked before ids (.ok size, after)

theorem asked_tcpdnsSend
    (conf : Nspconf) (dial : Dial) (data : List UInt8) {before : Master}
    {ids : List Nat} (sound : Sound before ids) :
    ∃ result,
      tcpdnsSend conf dial data before = .ok result ∧
        Asked before ids result := by
  simp only [tcpdnsSend]
  split
  · exact ⟨_, rfl, .refused _⟩
  · next bounded =>
      split
      · exact ⟨_, rfl, .refused _⟩
      · have fresh : before.allocated ∉ ids := by
          intro present
          exact Nat.lt_irrefl _ (sound.young _ present)
        rcases sound.listed.pushFront fresh
            { proxy := some before.allocated
              buffer :=
                UInt8.ofNat (data.length / 256) ::
                  UInt8.ofNat (data.length % 256) :: data
              done := false } with
          ⟨workers, pushed, listed, new, others⟩
        rw [pushed]
        refine ⟨_, rfl, .made ⟨listed, new, rfl, rfl, ?_, others,
          if_pos rfl, rfl, rfl, ?_, rfl, rfl⟩⟩
        · simp only [List.length_cons]
          omega
        · intro other different
          exact if_neg different

section Made

variable {before after : Master} {ids : List Nat} {worker : Worker}
  {connection : Connection}

theorem Made.old
    (sound : Sound before ids)
    (made : Made before after ids worker connection)
    {id : Nat} (member : id ∈ ids) :
    after.workers.data id = before.workers.data id :=
  made.workers id (Nat.ne_of_lt (sound.young id member))

/-- The new worker is not done. -/
theorem Made.marked
    (sound : Sound before ids)
    (made : Made before after ids worker connection) :
    (before.allocated :: ids).filter (isDone after) =
      ids.filter (isDone before) := by
  rw [List.filter_cons_of_neg]
  · apply List.filter_congr
    intro id member
    rw [isDone, isDone, made.old sound member]
  · rw [isDone_of_data made.new, made.waiting]
    exact Bool.false_ne_true

theorem Made.sound
    (sound : Sound before ids)
    (made : Made before after ids worker connection) :
    Sound after (before.allocated :: ids) := by
  refine
    { listed := made.listed
      few := ?_
      young := ?_
      semaphore := ?_
      counted := ?_
      fits := ?_
      idle := ?_
      busy := ?_
      live := ?_ }
  · rw [made.allocated, List.length_cons]
    exact Nat.succ_le_succ sound.few
  · intro id member
    rw [made.allocated]
    rcases List.mem_cons.mp member with rfl | older
    · exact Nat.lt_succ_self _
    · exact Nat.lt_succ_of_lt (sound.young id older)
  · rw [made.evfd]
    exact sound.semaphore
  · rw [made.evfd, made.marked sound]
    exact sound.counted
  · intro id found data_
    by_cases own : id = before.allocated
    · rw [own, made.new] at data_
      cases data_
      exact made.fits
    · rw [made.workers id own] at data_
      exact sound.fits id found data_
  · intro id found data_ marked
    by_cases own : id = before.allocated
    · rw [own, made.new] at data_
      cases data_
      rw [made.waiting] at marked
      cases marked
    · rw [made.workers id own] at data_
      exact sound.idle id found data_ marked
  · intro id found data_ unmarked
    by_cases own : id = before.allocated
    · rw [own, made.new] at data_
      cases data_
      exact
        ⟨_, connection, made.proxy, made.present,
          made.userp.trans own.symm, made.refcnt⟩
    · rw [made.workers id own] at data_
      rcases sound.busy id found data_ unmarked with
        ⟨conn, there, channel, already, rest⟩
      refine ⟨conn, there, channel, ?_, rest⟩
      rw [made.connections conn]
      · exact already
      · exact Nat.ne_of_lt (sound.live conn there already).1
  · intro conn there already
    rw [made.allocated]
    by_cases own : conn = before.allocated
    · rw [own, made.present] at already
      cases already
      refine ⟨own ▸ Nat.lt_succ_self _, worker, ?_, ?_⟩
      · rw [made.userp]
        exact made.new
      · rw [own]
        exact made.proxy
    · rw [made.connections conn own] at already
      rcases sound.live conn there already with
        ⟨young, found, data_, channel⟩
      refine ⟨Nat.lt_succ_of_lt young, found, ?_, channel⟩
      rw [made.old sound (sound.mem data_)]
      exact data_

end Made

/-- A step of a handshake is no event of the worker. -/
theorem moved_shakes
    {before : Master} {ids : List Nat} {conn : Nat}
    {connection : Connection} (sound : Sound before ids)
    (present : before.connections conn = some connection)
    (proxy : Proxy) :
    ∃ worker,
      before.workers.data connection.userp = some worker ∧
        worker.done = false ∧
        Moved before
          (before.setConnection conn
            (some { connection with proxy := proxy }))
          ids ids connection.userp := by
  rcases sound.user present with
    ⟨worker, found, channel, waiting, single⟩
  have pair :
      Pair before ids connection.userp worker conn connection :=
    ⟨sound.listed, sound.mem found, found, channel, present, single⟩
  have rewritten :
      Rewritten before
        (before.setConnection conn
          (some { connection with proxy := proxy }))
        connection.userp (some worker) conn
        (some { connection with proxy := proxy }) := by
    refine ⟨found, fun _ _ => rfl, if_pos rfl, ?_, rfl, rfl⟩
    intro other different
    exact if_neg different
  refine ⟨worker, found, waiting, ?_⟩
  exact moved_rewritten sound pair rfl waiting rewritten rfl rfl
    (sound.fits _ worker found) rfl rfl sound.listed rfl

/-! ## The journal -/

/-- The workers which were marked done. -/
def finishedIds : List Entry → List Nat
  | [] => []
  | .finished id :: rest => id :: finishedIds rest
  | _ :: rest => finishedIds rest

/-- The workers whose answer was handed over. -/
def returnedIds : List Entry → List Nat
  | [] => []
  | .returned id _ _ :: rest => id :: returnedIds rest
  | _ :: rest => returnedIds rest

theorem finishedIds_append (front back : List Entry) :
    finishedIds (front ++ back) = finishedIds front ++ finishedIds back := by
  induction front with
  | nil => rfl
  | cons entry rest induction =>
      cases entry with
      | finished id =>
          simp only [List.cons_append, finishedIds, induction]
      | read id bytes => exact induction
      | returned id size answer => exact induction

theorem returnedIds_append (front back : List Entry) :
    returnedIds (front ++ back) = returnedIds front ++ returnedIds back := by
  induction front with
  | nil => rfl
  | cons entry rest induction =>
      cases entry with
      | returned id size answer =>
          simp only [List.cons_append, returnedIds, induction]
      | read id bytes => exact induction
      | finished id => exact induction

/-- The entries of an event tell of its worker alone. -/
theorem ids_eventEntries
    (event : EventMask) (calls : WorkerCalls) {connection : Connection}
    {before : Master} (after : Master) {worker : Worker}
    (found : before.workers.data connection.userp = some worker) :
    finishedIds (eventEntries event calls connection before after) =
        (if isDone after connection.userp then [connection.userp]
        else []) ∧
      returnedIds (eventEntries event calls connection before after) =
        [] := by
  have silent :
      finishedIds (Workers.readEntries event calls connection worker) =
          [] ∧
        returnedIds (Workers.readEntries event calls connection worker) =
          [] := by
    unfold Workers.readEntries
    split
    · split
      · exact ⟨rfl, rfl⟩
      · exact ⟨rfl, rfl⟩
    · exact ⟨rfl, rfl⟩
  simp only [eventEntries, found]
  rw [finishedIds_append, returnedIds_append, silent.1, silent.2]
  unfold isDone
  split
  · exact ⟨rfl, rfl⟩
  · exact ⟨rfl, rfl⟩

/-- The journal and the master agree. -/
structure Kept (session : Session) (ids : List Nat) : Prop where
  sound : Sound session.master ids
  made : ∀ id ∈ finishedIds session.journal, id < session.master.allocated
  once : (finishedIds session.journal).Nodup
  past : ∀ id ∈ returnedIds session.journal, id ∉ ids
  balance :
    (finishedIds session.journal).Perm
      (returnedIds session.journal ++
        ids.filter (isDone session.master))

section Keeps

variable {session : Session} {ids : List Nat}

theorem Kept.returned_finished
    (kept : Kept session ids) {id : Nat}
    (member : id ∈ returnedIds session.journal) :
    id ∈ finishedIds session.journal :=
  kept.balance.mem_iff.mpr (List.mem_append_left _ member)

/-- An event which marks its worker, or does not. -/
theorem Kept.moves
    (kept : Kept session ids) {after : Session} {next : List Nat}
    {id : Nat}
    (moved : Moved session.master after.master ids next id)
    (member : id ∈ ids) (waiting : isDone session.master id = false)
    (finished :
      finishedIds after.journal =
        finishedIds session.journal ++
          if isDone after.master id then [id] else [])
    (returned :
      returnedIds after.journal = returnedIds session.journal) :
    Kept after next := by
  have unmarked : id ∉ finishedIds session.journal := by
    intro marked
    rcases List.mem_append.mp (kept.balance.mem_iff.mp marked) with
      gone | still
    · exact kept.past id gone member
    · rw [List.mem_filter, waiting] at still
      exact Bool.false_ne_true still.2
  refine ⟨moved.sound, ?_, ?_, ?_, ?_⟩
  · intro other marked
    rw [moved.allocated]
    rw [finished] at marked
    rcases List.mem_append.mp marked with older | newer
    · exact kept.made other older
    · split at newer
      · rw [List.mem_singleton.mp newer]
        exact kept.sound.young id member
      · cases newer
  · rw [finished]
    split
    · rw [List.nodup_append]
      refine ⟨kept.once, List.nodup_singleton id, ?_⟩
      intro other marked last newer same
      rw [same, List.mem_singleton.mp newer] at marked
      exact unmarked marked
    · rw [List.append_nil]
      exact kept.once
  · intro other gone present
    rw [returned] at gone
    exact kept.past other gone (moved.subset other present)
  · rw [finished, returned]
    refine (List.Perm.append_right _ kept.balance).trans ?_
    rw [List.append_assoc]
    apply List.Perm.append_left
    exact List.perm_append_comm.trans moved.marked.symm

theorem Kept.sends
    (kept : Kept session ids) {result : Except Errno Nat × Master}
    (asked : Asked session.master ids result) :
    ∃ next, Kept { session with master := result.2 } next := by
  cases asked with
  | refused errno => exact ⟨ids, kept⟩
  | made made =>
      refine
        ⟨session.master.allocated :: ids, made.sound kept.sound, ?_,
          kept.once, ?_, ?_⟩
      · intro id marked
        simp only [made.allocated]
        exact Nat.lt_succ_of_lt (kept.made id marked)
      · intro id gone present
        rcases List.mem_cons.mp present with same | older
        · have bounded := kept.made id (kept.returned_finished gone)
          rw [same] at bounded
          exact Nat.lt_irrefl _ bounded
        · exact kept.past id gone older
      · simp only [made.marked kept.sound]
        exact kept.balance

theorem Kept.returns
    (kept : Kept session ids) {after : Master} {id : Nat}
    {worker : Worker}
    (returned : Returned session.master after ids id worker)
    (size : Nat) (answer : List UInt8) :
    Kept
      { master := after
        journal := session.journal ++ [.returned id size answer] }
      (ids.erase id) := by
  have finishes :
      finishedIds (session.journal ++ [.returned id size answer]) =
        finishedIds session.journal := by
    rw [finishedIds_append]
    exact List.append_nil _
  have returns :
      returnedIds (session.journal ++ [.returned id size answer]) =
        returnedIds session.journal ++ [id] := by
    rw [returnedIds_append]
    rfl
  refine ⟨returned.sound kept.sound, ?_, ?_, ?_, ?_⟩
  · intro other marked
    rw [finishes] at marked
    simp only [returned.allocated]
    exact kept.made other marked
  · rw [finishes]
    exact kept.once
  · intro other gone present
    rw [returns] at gone
    rcases List.mem_append.mp gone with older | newer
    · exact kept.past other older (List.mem_of_mem_erase present)
    · rw [List.mem_singleton.mp newer] at present
      exact (kept.sound.listed.distinct.mem_erase_iff.mp present).1 rfl
  · rw [finishes, returns, List.append_assoc]
    refine kept.balance.trans ?_
    apply List.Perm.append_left
    exact returned.marked kept.sound

end Keeps

/-! ## Runs -/

section Runs

variable {conf : Nspconf} {session : Session} {ids : List Nat}

/-- A `tcpdns_recv` when no worker is done. -/
theorem recv_empty
    (conf : Nspconf) (kept : Kept session ids)
    (empty : session.master.evfd.counter = 0) (size : Nat) :
    tcpdnsStep conf session (.recv size) = .ok session := by
  rcases tcpdnsRecv_none kept.sound empty size with ⟨handled, nobody⟩
  simp only [tcpdnsStep, handled, recvEntries, findDone_eq kept.sound,
    nobody, List.append_nil]

/-- A `tcpdns_recv` when a worker is done. -/
theorem recv_posted
    (conf : Nspconf) (kept : Kept session ids)
    (posted : 0 < session.master.evfd.counter) (size : Nat) :
    ∃ id worker after,
      Returned session.master after ids id worker ∧
        tcpdnsStep conf session (.recv size) =
          .ok
            { master := after
              journal :=
                session.journal ++
                  [.returned id size
                    ((worker.buffer.drop 2).take size)] } := by
  rcases tcpdnsRecv_some kept.sound posted size with
    ⟨id, worker, after, handled, returned⟩
  refine ⟨id, worker, after, returned, ?_⟩
  simp only [tcpdnsStep, handled, recvEntries, findDone_eq kept.sound,
    returned.first]

/-- What a turn comes to. -/
inductive Turned (session : Session) (ids : List Nat) :
    Turn → Session → Prop where
  | sends (asked : Asked session.master ids result) :
      Turned session ids (.send data dial)
        { session with master := result.2 }
  | shakes
      (present : session.master.connections conn = some connection)
      (shaking : connection.proxy.phase = .handshake) :
      Turned session ids (.shakes conn proxy)
        { session with
          master :=
            session.master.setConnection conn
              (some { connection with proxy := proxy }) }
  | tells {connection : Connection} {worker : Worker} {conn : Nat}
      {calls : WorkerCalls} {event : EventMask} {after : Master}
      (pair :
        Pair session.master ids connection.userp worker conn connection)
      (waiting : worker.done = false)
      (handled :
        Handled calls event session.master ids connection.userp worker
          conn connection after) :
      Turned session ids (.event conn event calls)
        { master := after
          journal :=
            session.journal ++
              eventEntries event calls connection session.master after }
  | finds_none : Turned session ids (.recv size) session
  | returns {id : Nat}
      (returned : Returned session.master after ids id worker) :
      Turned session ids (.recv size)
        { master := after
          journal :=
            session.journal ++
              [.returned id size ((worker.buffer.drop 2).take size)] }

/-- Every turn is handled. -/
theorem turned_step
    (conf : Nspconf) (kept : Kept session ids) {turn : Turn}
    (permitted : tcpdnsEnabled session turn) :
    ∃ after,
      tcpdnsStep conf session turn = .ok after ∧
        Turned session ids turn after := by
  cases turn with
  | send data dial =>
      rcases asked_tcpdnsSend conf dial data kept.sound with
        ⟨result, handled, asked⟩
      exact ⟨_, by simp only [tcpdnsStep, handled], .sends asked⟩
  | shakes conn proxy =>
      rcases permitted with ⟨connection, present, shaking⟩
      exact
        ⟨_, by simp only [tcpdnsStep, present],
          .shakes present shaking⟩
  | event conn event calls =>
      rcases permitted with ⟨connection, present⟩
      rcases kept.sound.user present with
        ⟨worker, found, channel, waiting, single⟩
      have pair :
          Pair session.master ids connection.userp worker conn
            connection :=
        ⟨kept.sound.listed, kept.sound.mem found, found, channel, present,
          single⟩
      have handles :
          ∃ after,
            tcpdnsWorkerHandleEvent calls connection.userp event
                session.master = .ok after ∧
              Handled calls event session.master ids connection.userp
                worker conn connection after :=
        pair.handles
      rcases handles with ⟨after, called, handled⟩
      exact
        ⟨_, by simp only [tcpdnsStep, present, called],
          .tells pair waiting handled⟩
  | recv size =>
      by_cases empty : session.master.evfd.counter = 0
      · exact ⟨session, recv_empty conf kept empty size, .finds_none⟩
      · rcases recv_posted conf kept (Nat.pos_of_ne_zero empty) size with
          ⟨id, worker, after, returned, handled⟩
        exact ⟨_, handled, .returns returned⟩

/-- A turn keeps the invariant. -/
theorem Turned.kept
    {after : Session} {turn : Turn} (kept : Kept session ids)
    (turned : Turned session ids turn after) :
    ∃ next, Kept after next := by
  cases turned with
  | sends asked => exact kept.sends asked
  | @shakes conn connection proxy present shaking =>
      rcases moved_shakes kept.sound present proxy with
        ⟨worker, found, waiting, moved⟩
      refine ⟨ids, kept.moves moved (kept.sound.mem found) ?_ ?_ rfl⟩
      · rw [isDone_of_data found]
        exact waiting
      · have undone :
            isDone
                (session.master.setConnection conn
                  (some { connection with proxy := proxy }))
                connection.userp = false := by
          rw [← waiting]
          exact isDone_of_data found
        rw [undone]
        exact (List.append_nil _).symm
  | @tells connection worker conn calls event after pair waiting handled =>
      rcases moved_of_handled kept.sound pair rfl waiting handled with
        ⟨next, moved⟩
      rcases ids_eventEntries event calls after pair.found with
        ⟨finishes, returns⟩
      refine ⟨next, kept.moves moved pair.member ?_ ?_ ?_⟩
      · rw [isDone_of_data pair.found]
        exact waiting
      · rw [finishedIds_append, finishes]
      · rw [returnedIds_append, returns, List.append_nil]
  | finds_none => exact ⟨ids, kept⟩
  | returns returned => exact ⟨_, kept.returns returned _ _⟩

theorem turned_of_handled
    {after : Session} {turn : Turn} (kept : Kept session ids)
    (permitted : tcpdnsEnabled session turn)
    (handled : tcpdnsStep conf session turn = .ok after) :
    Turned session ids turn after := by
  rcases turned_step conf kept permitted with ⟨found, stepped, turned⟩
  rw [stepped] at handled
  cases handled
  exact turned

theorem kept_of_reachable
    (reachable : (tcpdnsSystem conf).Reachable session) :
    ∃ ids, Kept session ids := by
  apply reachable.invariant
  · rintro source rfl
    refine ⟨[], sound_tcpdnsCreate, ?_, List.nodup_nil, ?_, ?_⟩
    · intro id impossible
      cases impossible
    · intro id impossible
      cases impossible
    · exact List.Perm.refl _
  · rintro source turn target ⟨ids, kept⟩ permitted handled
    exact (turned_of_handled kept permitted handled).kept kept

/-- The worker which is returned is the first which is done. -/
theorem Returned.filter
    {before after : Master} {id : Nat} {worker : Worker}
    (sound : Sound before ids)
    (returned : Returned before after ids id worker) :
    ids.filter (isDone before) =
      id :: (ids.erase id).filter (isDone after) := by
  rw [filter_isDone_erase sound.listed.distinct returned.others,
    ← List.erase_filter]
  have first := returned.first
  rw [← List.head?_filter] at first
  cases marked : ids.filter (isDone before) with
  | nil =>
      rw [marked] at first
      cases first
  | cons found rest =>
      rw [marked] at first
      cases first
      rw [List.erase_cons_head]

/-- As many calls as the counter says hand over every answer, in order. -/
theorem drained
    (kept : Kept session ids) {sizes : List Nat}
    (enough : sizes.length = session.master.evfd.counter) :
    ∃ after,
      (tcpdnsSystem conf).replay session (sizes.map .recv) = some after ∧
        returnedIds after.journal =
          returnedIds session.journal ++
            ids.filter (isDone session.master) := by
  induction sizes generalizing session ids with
  | nil =>
      have nobody := kept.sound.counted
      rw [← enough] at nobody
      refine ⟨session, rfl, ?_⟩
      rw [List.eq_nil_of_length_eq_zero nobody.symm, List.append_nil]
  | cons size rest induction =>
      have posted : 0 < session.master.evfd.counter := by
        rw [← enough]
        exact Nat.succ_pos _
      rcases recv_posted conf kept posted size with
        ⟨id, worker, middle, returned, handled⟩
      have fewer : rest.length = middle.evfd.counter := by
        simp only [returned.evfd, ← enough, List.length_cons,
          Nat.add_sub_cancel]
      rcases induction (kept.returns returned size _) fewer with
        ⟨after, replayed, returns⟩
      refine ⟨after, ?_, ?_⟩
      · have permitted :
            (tcpdnsSystem conf).enabled session (.recv size) := trivial
        simp only [List.map_cons, System.replay, if_pos permitted]
        rw [show (tcpdnsSystem conf).step session (.recv size) = _
          from handled]
        exact replayed
      · rw [returns, returnedIds_append, List.append_assoc,
          returned.filter kept.sound]
        rfl

end Runs

/-! ## The account of a run -/

/-- Answers are neither lost nor duplicated. -/
structure Accounts
    (conf : Nspconf) (session : Session) (ids : List Nat) : Prop where
  listed : Holds session.master.workers ids
  counted :
    session.master.evfd.counter =
      (ids.filter (isDone session.master)).length
  closed :
    ∀ id worker, session.master.workers.data id = some worker →
      worker.done = true → worker.proxy = none
  quiet :
    ∀ conn connection,
      session.master.connections conn = some connection →
      ∃ worker,
        session.master.workers.data connection.userp = some worker ∧
          worker.done = false
  once : (finishedIds session.journal).Nodup
  balance :
    (finishedIds session.journal).Perm
      (returnedIds session.journal ++
        ids.filter (isDone session.master))
  removed : ∀ id ∈ returnedIds session.journal, id ∉ ids
  handled :
    ∀ turn, tcpdnsEnabled session turn →
      ∃ after, tcpdnsStep conf session turn = .ok after
  empty :
    session.master.evfd.counter = 0 →
      ∀ size,
        tcpdnsRecv size session.master =
          .ok (.error .eagain, session.master)
  answers :
    0 < session.master.evfd.counter →
      ∀ size, ∃ id worker after,
        tcpdnsRecv size session.master =
            .ok (.ok ((worker.buffer.drop 2).take size), after) ∧
          Returned session.master after ids id worker
  drains :
    ∀ sizes : List Nat,
      sizes.length = session.master.evfd.counter →
      ∃ after,
        (tcpdnsSystem conf).replay session (sizes.map .recv) =
            some after ∧
          returnedIds after.journal =
            returnedIds session.journal ++
              ids.filter (isDone session.master)

/--
Whatever the order of the calls and events, every worker which becomes done is
returned by one call, and the counter says how many are still to be returned.
-/
theorem tcpdns_answers_accounted
    (conf : Nspconf) {session : Session}
    (reachable : (tcpdnsSystem conf).Reachable session) :
    ∃ ids, Accounts conf session ids := by
  rcases kept_of_reachable reachable with ⟨ids, kept⟩
  refine
    ⟨ids,
      { listed := kept.sound.listed
        counted := kept.sound.counted
        closed := ?_
        quiet := ?_
        once := kept.once
        balance := kept.balance
        removed := kept.past
        handled := ?_
        empty := fun idle size =>
          (tcpdnsRecv_none kept.sound idle size).1
        answers := tcpdnsRecv_some kept.sound
        drains := fun sizes enough => drained kept enough }⟩
  · intro id worker found marked
    exact (kept.sound.idle id worker found marked).1
  · intro conn connection present
    rcases kept.sound.user present with ⟨worker, found, _, waiting, _⟩
    exact ⟨worker, found, waiting⟩
  · intro turn permitted
    rcases turned_step conf kept permitted with ⟨after, stepped, _⟩
    exact ⟨after, stepped⟩

/-- A configuration which reaches its nameserver directly. -/
def sampleConf : Nspconf where
  proxysrv := []
  proxyport := 0
  proxytype := .direct
  dnssrv := ascii "1.1.1.1"
  dnsport := 53
  dnstype := .tcp
  proxyuser := []
  proxypass := []
  ipv6 := false
  directCidrs := []
  directCidrCapacity := 0
  directCidrMode := .whitelist

/-- A connection to a nameserver which will send this stream. -/
def sampleDial (stream : List UInt8) : Dial where
  connected := true
  epoll := true
  stream := stream

/-- The connection sends and shows so many bytes and one more. -/
def sampleCalls (more : Nat) : WorkerCalls where
  arrival := .shows more
  send := .accept more
  epoll := true

/-- Two queries, of which the second is answered, and the first fails. -/
def sampleRun : List Turn :=
  [.send [1, 2] (sampleDial []),
    .send [3, 4] (sampleDial [0, 1, 7]),
    .event 1 epollout (sampleCalls 9),
    .event 0 epollerr (sampleCalls 0),
    .event 1 epollin (sampleCalls 9)]

theorem tcpdns_answers_accounted_posted :
    ∃ session,
      (tcpdnsSystem sampleConf).Reachable session ∧
        session.master.evfd.counter = 1 ∧
        ∃ ids, Accounts sampleConf session ids := by
  have start :
      (tcpdnsSystem sampleConf).Reachable
        { master := tcpdnsCreate, journal := [] } :=
    .start rfl
  have replayed :
      ((tcpdnsSystem sampleConf).replay
          { master := tcpdnsCreate, journal := [] } sampleRun).map
        (fun session => decide (session.master.evfd.counter = 1)) =
          some true := by
    decide +kernel
  rcases start.exists_replay replayed with ⟨session, reachable, posted⟩
  exact
    ⟨session, reachable, of_decide_eq_true posted,
      tcpdns_answers_accounted sampleConf reachable⟩

end Nsproxy.Tcpdns.Answers
