import Mathlib.Tactic.Common
import Nsproxy.Conf
import Nsproxy.Lib.Linked
import Nsproxy.Lib.Transition
import Nsproxy.Lwip.Opts
import Nsproxy.Skutils
import Nsproxy.Tcpdns.Answers
import Nsproxy.Tcpdns.Deframing
import Nsproxy.Tcpdns.Workers

/-!
# The query and the answer

A worker has one buffer, first for the query and then for the answer.  `Wire`
records what the worker was asked to send and what it gave to `proxy_send`;
together with the journal of its reads it tells which bytes are whose.

Nothing in the code keeps the two uses of the buffer apart.  As long as no
bytes of the nameserver are read while a part of the query is left, and
nothing is sent while bytes of the nameserver are in the buffer, the query is
sent as it is and the answer is what the nameserver sent.
-/

namespace Nsproxy.Tcpdns.Exchanges

open Nsproxy.Conf
open Nsproxy.Lib.Linked
open Nsproxy.Lib.Transition
open Nsproxy.Lwip.Opts
open Nsproxy.Skutils
open Nsproxy.Tcpdns.Answers
open Nsproxy.Tcpdns.Deframing
open Nsproxy.Tcpdns.Workers

/-! ## What is sent -/

/-- What a worker is to send, and what it gives to `proxy_send`. -/
inductive Wire where
  /-- A query, with its length in front of it. -/
  | asked (id : Nat) (query : List UInt8)
  /-- The bytes which are offered, and how many of them are accepted. -/
  | gave (id : Nat) (offered : List UInt8) (accepted : Nat)
deriving DecidableEq, Repr

/-- The event is one for which the worker calls `proxy_send`. -/
def Offers (event : EventMask) : Prop :=
  event.meets epollerr = false ∧ event.meets epollin = false ∧
    event.meets epollout = true

instance (event : EventMask) : Decidable (Offers event) :=
  inferInstanceAs (Decidable (_ ∧ _))

/-- The event is one for which the worker calls `proxy_recv`. -/
def Reads (event : EventMask) : Prop :=
  event.meets epollerr = false ∧ event.meets epollin = true

instance (event : EventMask) : Decidable (Reads event) :=
  inferInstanceAs (Decidable (_ ∧ _))

/-- How many bytes `proxy_send` accepts. -/
def acceptedBytes
    (calls : WorkerCalls) (connection : Connection) (worker : Worker) :
    Nat :=
  match connection.proxy.send calls.send worker.buffer.length with
  | .ok count => count
  | .error _ => 0

/-- The entries of a turn. -/
def wireEntries (conf : Nspconf) (session : Session) : Turn → List Wire
  | .send data dial =>
      match tcpdnsSend conf dial data session.master with
      | .ok (.ok _, _) => [.asked session.master.allocated (framed data)]
      | _ => []
  | .event conn event calls =>
      match session.master.connections conn with
      | none => []
      | some connection =>
          match session.master.workers.data connection.userp with
          | none => []
          | some worker =>
              if Offers event then
                [.gave connection.userp worker.buffer
                  (acceptedBytes calls connection worker)]
              else
                []
  | _ => []

/-- A session, and what went over the wire. -/
structure Exchange where
  session : Session
  wire : List Wire

/-- One turn. -/
def exchangeStep (conf : Nspconf) (exchange : Exchange) (turn : Turn) :
    Except Fault Exchange :=
  match tcpdnsStep conf exchange.session turn with
  | .error fault => .error fault
  | .ok next =>
      .ok
        { session := next
          wire :=
            exchange.wire ++ wireEntries conf exchange.session turn }

/-- The runs of one master, with the wire. -/
def exchangeSystem (conf : Nspconf) : System Fault Exchange Turn where
  initial exchange :=
    (tcpdnsSystem conf).initial exchange.session ∧ exchange.wire = []
  enabled exchange turn := tcpdnsEnabled exchange.session turn
  step := exchangeStep conf

/-! ## What the wire tells of one worker -/

/-- The queries of a worker. -/
def askedOf (id : Nat) : List Wire → List (List UInt8)
  | [] => []
  | .asked other query :: rest =>
      if other = id then query :: askedOf id rest else askedOf id rest
  | .gave _ _ _ :: rest => askedOf id rest

/-- What a worker gave to `proxy_send`. -/
def givenOf (id : Nat) : List Wire → List (List UInt8 × Nat)
  | [] => []
  | .asked _ _ :: rest => givenOf id rest
  | .gave other offered accepted :: rest =>
      if other = id then (offered, accepted) :: givenOf id rest
      else givenOf id rest

/-- The bytes which were accepted. -/
def sent (given : List (List UInt8 × Nat)) : List UInt8 :=
  given.flatMap fun call => call.1.take call.2

/-- Every call was given what was left of the query, and nothing else. -/
def InOrder
    (query : List UInt8) (given : List (List UInt8 × Nat)) : Prop :=
  ∀ before offered accepted after,
    given = before ++ (offered, accepted) :: after →
      sent before ++ offered = query

/--
The query of the worker is sent as it is, and every answer is what was read
from the nameserver, without the length in front of it.
-/
structure Unmistaken (id : Nat) (exchange : Exchange) : Prop where
  query :
    ∀ query ∈ askedOf id exchange.wire,
      InOrder query (givenOf id exchange.wire)
  answer :
    ∀ size answer,
      .returned id size answer ∈ exchange.session.journal →
        answer =
          ((readsOf id exchange.session.journal).flatten.drop 2).take size

/-- The whole query of the worker was sent. -/
def QuerySent (id : Nat) (exchange : Exchange) : Prop :=
  ∀ query ∈ askedOf id exchange.wire,
    sent (givenOf id exchange.wire) = query

instance (id : Nat) (exchange : Exchange) :
    Decidable (QuerySent id exchange) :=
  inferInstanceAs (Decidable (∀ query ∈ _, _))

/-- There are bytes. -/
def Arrives (answer : RecvAnswer) : Prop :=
  ∃ bytes, answer = .data bytes ∧ bytes ≠ []

instance (answer : RecvAnswer) : Decidable (Arrives answer) :=
  match answer with
  | .err _ => .isFalse (by rintro ⟨bytes, impossible, _⟩; cases impossible)
  | .data [] => .isFalse (by rintro ⟨bytes, ⟨⟩, some_byte⟩; exact some_byte rfl)
  | .data (byte :: more) => .isTrue ⟨_, rfl, List.cons_ne_nil byte more⟩

/--
The turn keeps the uses of the buffer apart: no bytes of the nameserver are
read before the whole query was sent, and after that nothing is sent while
there are bytes in the buffer.
-/
def Apart (exchange : Exchange) : Turn → Prop
  | .event conn event calls =>
      match exchange.session.master.connections conn with
      | none => True
      | some connection =>
          match
              exchange.session.master.workers.data connection.userp with
          | none => True
          | some worker =>
              (Reads event →
                Arrives (workerRecv calls connection worker) →
                QuerySent connection.userp exchange) ∧
              (Offers event → worker.buffer ≠ [] →
                ¬ QuerySent connection.userp exchange)
  | _ => True

instance (exchange : Exchange) (turn : Turn) :
    Decidable (Apart exchange turn) :=
  match turn with
  | .send _ _ | .shakes _ _ | .recv _ => .isTrue trivial
  | .event conn event calls =>
      match present : exchange.session.master.connections conn with
      | none => .isTrue (by simp only [Apart, present])
      | some connection =>
          match found :
              exchange.session.master.workers.data connection.userp with
          | none => .isTrue (by simp only [Apart, present, found])
          | some worker =>
              decidable_of_iff
                ((Reads event →
                    Arrives (workerRecv calls connection worker) →
                    QuerySent connection.userp exchange) ∧
                  (Offers event → worker.buffer ≠ [] →
                    ¬ QuerySent connection.userp exchange))
                (by simp only [Apart, present, found])

/-! ## Logs -/

theorem askedOf_append (id : Nat) (front back : List Wire) :
    askedOf id (front ++ back) = askedOf id front ++ askedOf id back := by
  induction front with
  | nil => rfl
  | cons entry rest induction =>
      cases entry with
      | asked other query =>
          simp only [List.cons_append, askedOf, induction]
          split
          · rfl
          · rfl
      | gave other offered accepted => exact induction

theorem givenOf_append (id : Nat) (front back : List Wire) :
    givenOf id (front ++ back) = givenOf id front ++ givenOf id back := by
  induction front with
  | nil => rfl
  | cons entry rest induction =>
      cases entry with
      | asked other query => exact induction
      | gave other offered accepted =>
          simp only [List.cons_append, givenOf, induction]
          split
          · rfl
          · rfl

theorem inOrder_nil (query : List UInt8) : InOrder query [] := by
  intro before offered accepted after impossible
  cases before with
  | nil => cases impossible
  | cons first rest => cases impossible

/-- One more call which is given what is left. -/
theorem InOrder.concat
    {query offered : List UInt8} {given : List (List UInt8 × Nat)}
    (inOrder : InOrder query given) (accepted : Nat)
    (left : sent given ++ offered = query) :
    InOrder query (given ++ [(offered, accepted)]) := by
  intro before last count after same
  rcases List.eq_nil_or_concat after with rfl | ⟨front, back, rfl⟩
  · have parts := List.append_inj' same rfl
    rcases parts with ⟨rfl, tail⟩
    cases tail
    exact left
  · rw [List.concat_eq_append, ← List.cons_append,
      ← List.append_assoc] at same
    have parts := List.append_inj' same rfl
    exact inOrder before last count front parts.1

theorem sent_concat
    (given : List (List UInt8 × Nat)) (offered : List UInt8)
    (accepted : Nat) :
    sent (given ++ [(offered, accepted)]) =
      sent given ++ offered.take accepted := by
  simp [sent]

/-! ## Events, exactly -/

section Events

variable {calls : WorkerCalls} {event : EventMask} {before after : Master}
  {ids : List Nat} {id : Nat} {worker : Worker} {conn : Nat}
  {connection : Connection}

/-- An error destroys the worker. -/
theorem gone_of_error
    (pair : Pair before ids id worker conn connection)
    (failed : event.meets epollerr = true)
    (handled :
      tcpdnsWorkerHandleEvent calls id event before = .ok after) :
    after.workers.data id = none := by
  rcases destroy_busy pair.listed pair.member pair.found pair.proxy
      pair.present pair.single with ⟨gone, destroyed, rewritten, _⟩
  simp only [tcpdnsWorkerHandleEvent, pair.found, if_pos failed,
    destroyed] at handled
  cases handled
  exact rewritten.worker

/-- What `proxy_send` accepts is dropped from the buffer. -/
theorem data_of_offer
    (pair : Pair before ids id worker conn connection)
    (offers : Offers event)
    (handled :
      tcpdnsWorkerHandleEvent calls id event before = .ok after) :
    after.workers.data id = none ∨
      after.workers.data id =
        some
          { worker with
            buffer :=
              worker.buffer.drop
                (acceptedBytes calls connection worker) } := by
  rcases offers with ⟨noError, noInput, output⟩
  rcases destroy_busy pair.listed pair.member pair.found pair.proxy
      pair.present pair.single with ⟨gone, destroyed, rewritten, _⟩
  have noError_ : ¬ event.meets epollerr = true := by
    rw [noError]
    decide
  have noInput_ : ¬ event.meets epollin = true := by
    rw [noInput]
    decide
  simp only [tcpdnsWorkerHandleEvent, pair.found, if_neg noError_,
    if_pos (Or.inr output), pair.proxy, pair.present, if_neg noInput_]
    at handled
  simp only [workerOutput] at handled
  simp only [acceptedBytes]
  cases result : connection.proxy.send calls.send worker.buffer.length with
  | error errno =>
      rw [result] at handled
      simp only [] at handled
      split at handled
      · cases handled
        exact .inr pair.found
      · rw [destroyed] at handled
        cases handled
        exact .inl rewritten.worker
  | ok count =>
      rw [result] at handled
      cases count with
      | zero =>
          simp only [destroyed] at handled
          cases handled
          exact .inl rewritten.worker
      | succ more =>
          rcases setWorker_spec before pair.listed pair.member
              { worker with
                buffer := worker.buffer.drop (more + 1) } with
            ⟨next, set, _, new, _⟩
          simp only [set] at handled
          split at handled
          · cases handled
            exact .inr new
          · cases handled
            exact .inr new

end Events

/-- The worker of a query begins with the query in its buffer. -/
theorem data_of_asked
    {conf : Nspconf} {dial : Dial} {data : List UInt8}
    {before after : Master} {ids : List Nat} {size : Nat}
    (sound : Sound before ids)
    (asked : tcpdnsSend conf dial data before = .ok (.ok size, after)) :
    after.workers.data before.allocated =
      some
        { proxy := some before.allocated
          buffer := framed data
          done := false } := by
  have fresh : before.allocated ∉ ids := by
    intro present
    exact Nat.lt_irrefl _ (sound.young _ present)
  rcases sound.listed.pushFront fresh
      { proxy := some before.allocated
        buffer := framed data
        done := false } with
    ⟨workers, pushed, _, new, _⟩
  rw [framed] at pushed
  simp only [tcpdnsSend] at asked
  split at asked
  · cases asked
  · split at asked
    · cases asked
    · rw [pushed] at asked
      cases asked
      exact new

/-! ## One worker -/

/-- Where the worker is, given what it sent and what it read. -/
inductive Role
    (query sending received : List UInt8)
    (answers : List (Nat × List UInt8)) : Option Worker → Prop where
  | sends (conn : Nat) (front : sending <+: query)
      (unread : received = []) (never : answers = []) :
      Role query sending received answers
        (some
          { proxy := some conn
            buffer := query.drop sending.length
            done := false })
  | receives (conn : Nat) (complete : sending = query)
      (never : answers = []) :
      Role query sending received answers
        (some { proxy := some conn, buffer := received, done := false })
  | done (never : answers = []) :
      Role query sending received answers
        (some { proxy := none, buffer := received, done := true })
  | returned (size : Nat)
      (once : answers = [(size, (received.drop 2).take size)]) :
      Role query sending received answers none
  | dropped (never : answers = []) :
      Role query sending received answers none

/-- A worker with an empty buffer, whose query was sent, can only receive. -/
theorem Role.receiving
    {query received : List UInt8} {answers : List (Nat × List UInt8)}
    {worker : Worker}
    (role : Role query query received answers (some worker))
    (waiting : worker.done = false) :
    worker.buffer = received ∧ answers = [] := by
  cases role with
  | sends conn front unread never =>
      rw [unread]
      exact ⟨List.drop_length, never⟩
  | receives conn complete never => exact ⟨rfl, never⟩
  | done never => cases waiting

/-- The worker from the call of `tcpdns_send` on, or the time before. -/
inductive Follows (id : Nat) (exchange : Exchange) : Prop where
  | unborn
      (young : exchange.session.master.allocated ≤ id)
      (unasked : askedOf id exchange.wire = [])
      (ungiven : givenOf id exchange.wire = [])
      (unread : readsOf id exchange.session.journal = [])
      (never : answersOf id exchange.session.journal = [])
  | born (query : List UInt8)
      (old : id < exchange.session.master.allocated)
      (asked : askedOf id exchange.wire = [query])
      (inOrder : InOrder query (givenOf id exchange.wire))
      (role :
        Role query (sent (givenOf id exchange.wire))
          (readsOf id exchange.session.journal).flatten
          (answersOf id exchange.session.journal)
          (exchange.session.master.workers.data id))

/-- The worker was followed to a place where it is not mistaken. -/
theorem Follows.unmistaken
    {id : Nat} {exchange : Exchange} (follows : Follows id exchange) :
    Unmistaken id exchange := by
  cases follows with
  | unborn young unasked ungiven unread never =>
      constructor
      · intro query member
        rw [unasked] at member
        cases member
      · intro size answer member
        rw [mem_answersOf, never] at member
        cases member
  | born query old asked inOrder role =>
      constructor
      · intro other member
        rw [asked] at member
        rw [List.mem_singleton.mp member]
        exact inOrder
      · intro size answer member
        rw [mem_answersOf] at member
        generalize exchange.session.master.workers.data id = data at role
        cases role with
        | sends conn front unread never =>
            rw [never] at member
            cases member
        | receives conn complete never =>
            rw [never] at member
            cases member
        | done never =>
            rw [never] at member
            cases member
        | returned given once =>
            rw [once, List.mem_singleton] at member
            cases member
            rfl
        | dropped never =>
            rw [never] at member
            cases member

/-! ## An event of the worker -/

/-- What the worker gives to `proxy_send`. -/
def newGiven
    (event : EventMask) (calls : WorkerCalls) (connection : Connection)
    (worker : Worker) : List (List UInt8 × Nat) :=
  if Offers event then
    [(worker.buffer, acceptedBytes calls connection worker)]
  else
    []

/-- What the worker gets from `proxy_recv`. -/
def newRead
    (event : EventMask) (calls : WorkerCalls) (connection : Connection)
    (worker : Worker) : List UInt8 :=
  if Reads event then
    match workerRecv calls connection worker with
    | .data bytes => bytes
    | .err _ => []
  else
    []

section Worker

variable {query received : List UInt8} {given : List (List UInt8 × Nat)}
  {answers : List (Nat × List UInt8)} {calls : WorkerCalls}
  {event : EventMask} {before after : Master} {ids : List Nat} {id : Nat}
  {worker : Worker} {conn : Nat} {connection : Connection}

theorem Role.never
    {sending : List UInt8}
    (role : Role query sending received answers (some worker))
    (waiting : worker.done = false) :
    answers = [] := by
  cases role with
  | sends conn front unread never => exact never
  | receives conn complete never => exact never
  | done never => cases waiting

/-- What the worker offers is what is left of the query. -/
theorem Role.offered
    (role : Role query (sent given) received answers (some worker))
    (waiting : worker.done = false)
    (apart : worker.buffer ≠ [] → sent given ≠ query) :
    sent given ++ worker.buffer = query := by
  cases role with
  | sends conn front unread never =>
      rcases front with ⟨rest, rfl⟩
      rw [List.drop_left]
  | receives conn complete never =>
      have empty : received = [] := by
        apply Classical.byContradiction
        intro some_byte
        exact apart some_byte complete
      rw [empty, List.append_nil]
      exact complete
  | done never => cases waiting

/-- The role of the worker after a call of `proxy_send`. -/
theorem Role.gives
    (role : Role query (sent given) received answers (some worker))
    (waiting : worker.done = false)
    (apart : worker.buffer ≠ [] → sent given ≠ query) (count : Nat) :
    Role query (sent given ++ worker.buffer.take count) received answers
      (some { worker with buffer := worker.buffer.drop count }) := by
  have whole := role.offered waiting apart
  cases role with
  | sends conn front unread never =>
      have split :
          (sent given ++
              (query.drop (sent given).length).take count) ++
            (query.drop (sent given).length).drop count = query := by
        rw [List.append_assoc, List.take_append_drop]
        exact whole
      have rest :
          query.drop
              (sent given ++
                (query.drop (sent given).length).take count).length =
            (query.drop (sent given).length).drop count := by
        have dropped :=
          congrArg
            (List.drop
              (sent given ++
                (query.drop (sent given).length).take count).length)
            split
        rw [List.drop_left] at dropped
        exact dropped.symm
      have next :
          Role query
            (sent given ++
              (query.drop (sent given).length).take count)
            received answers _ :=
        .sends conn ⟨_, split⟩ unread never
      rw [rest] at next
      exact next
  | receives conn complete never =>
      have empty : received = [] := by
        rw [complete, List.append_right_eq_self] at whole
        exact whole
      rw [empty, List.take_nil, List.drop_nil, List.append_nil]
      exact .receives conn complete never
  | done never => cases waiting

/-- An event which keeps the uses of the buffer apart. -/
theorem Role.tells
    (role : Role query (sent given) received answers (some worker))
    (inOrder : InOrder query given) (waiting : worker.done = false)
    (pair : Pair before ids id worker conn connection)
    (early :
      Reads event → Arrives (workerRecv calls connection worker) →
        sent given = query)
    (late : Offers event → worker.buffer ≠ [] → sent given ≠ query)
    (called : tcpdnsWorkerHandleEvent calls id event before = .ok after)
    (handled :
      Handled calls event before ids id worker conn connection after) :
    InOrder query (given ++ newGiven event calls connection worker) ∧
      Role query (sent (given ++ newGiven event calls connection worker))
        (received ++ newRead event calls connection worker) answers
        (after.workers.data id) := by
  have never := role.never waiting
  by_cases offers : Offers event
  · have noRead : ¬ Reads event := by
      intro reads
      have input := reads.2
      rw [offers.2.1] at input
      cases input
    have whole := role.offered waiting (late offers)
    rw [newGiven, if_pos offers, newRead, if_neg noRead, List.append_nil,
      sent_concat]
    refine ⟨inOrder.concat _ whole, ?_⟩
    rcases data_of_offer pair offers called with gone | left
    · rw [gone]
      exact .dropped never
    · rw [left]
      exact role.gives waiting (late offers) _
  · rw [newGiven, if_neg offers, List.append_nil]
    refine ⟨inOrder, ?_⟩
    by_cases failed : event.meets epollerr = true
    · rw [gone_of_error pair failed called]
      exact .dropped never
    · have noError := Bool.eq_false_iff.mpr failed
      cases handled with
      | ignored quiet =>
          rw [pair.found]
          have nothing :
              newRead event calls connection worker = [] := by
            rw [newRead]
            split
            · next reads => rw [quiet reads.2]
            · rfl
          rw [nothing, List.append_nil]
          exact role
      | dropped rewritten =>
          rw [rewritten.worker]
          exact .dropped never
      | wrote output =>
          exact absurd ⟨noError, output.1, output.2⟩ offers
      | read input arrived incomplete rewritten =>
          have reads : Reads event := input
          have complete :=
            early reads ⟨_, arrived, List.cons_ne_nil _ _⟩
          rw [complete] at role ⊢
          rcases role.receiving waiting with ⟨same, _⟩
          rw [rewritten.worker, newRead, if_pos reads, arrived, same,
            pair.proxy, waiting]
          exact .receives conn rfl never
      | finished input arrived complete rewritten =>
          have reads : Reads event := input
          have sentAll :=
            early reads ⟨_, arrived, List.cons_ne_nil _ _⟩
          rw [sentAll] at role ⊢
          rcases role.receiving waiting with ⟨same, _⟩
          rw [rewritten.worker, newRead, if_pos reads, arrived, same]
          exact .done never

end Worker

/-! ## One turn -/

section Turns

variable {conf : Nspconf} {id : Nat} {exchange after : Exchange}
  {ids : List Nat}

/-- A turn which does not touch the worker. -/
theorem Follows.frame
    (follows : Follows id exchange)
    (data :
      after.session.master.workers.data id =
        exchange.session.master.workers.data id)
    (asked : askedOf id after.wire = askedOf id exchange.wire)
    (given_ : givenOf id after.wire = givenOf id exchange.wire)
    (reads :
      readsOf id after.session.journal =
        readsOf id exchange.session.journal)
    (answers :
      answersOf id after.session.journal =
        answersOf id exchange.session.journal)
    (allocated :
      exchange.session.master.allocated ≤ after.session.master.allocated)
    (unborn :
      exchange.session.master.allocated ≤ id →
        after.session.master.allocated ≤ id) :
    Follows id after := by
  cases follows with
  | unborn young unasked ungiven unread never =>
      exact
        .unborn (unborn young) (asked.trans unasked)
          (given_.trans ungiven) (reads.trans unread)
          (answers.trans never)
  | born query old once inOrder role =>
      refine
        .born query (Nat.lt_of_lt_of_le old allocated) (asked.trans once)
          ?_ ?_
      · rw [given_]
        exact inOrder
      · rw [given_, reads, answers, data]
        exact role

/-- The entries of an event on the wire. -/
theorem of_wireEntries
    (id : Nat) {session : Session} {conn : Nat} {connection : Connection}
    {worker : Worker} (event : EventMask) (calls : WorkerCalls)
    (present : session.master.connections conn = some connection)
    (found :
      session.master.workers.data connection.userp = some worker) :
    askedOf id (wireEntries conf session (.event conn event calls)) = [] ∧
      givenOf id (wireEntries conf session (.event conn event calls)) =
        if connection.userp = id then
          newGiven event calls connection worker
        else
          [] := by
  simp only [wireEntries, present, found, newGiven]
  split
  · constructor
    · rfl
    · rfl
  · constructor
    · rfl
    · rw [ite_self]
      rfl

theorem flatten_readEntries
    {connection : Connection} (event : EventMask) (calls : WorkerCalls)
    (worker : Worker) (user : connection.userp = id) :
    (readsOf id
        (Workers.readEntries event calls connection worker)).flatten =
      newRead event calls connection worker := by
  unfold Workers.readEntries newRead
  by_cases reads : Reads event
  · have input :
        event.meets epollin = true ∧ ¬ event.meets epollerr = true := by
      rw [reads.1]
      exact ⟨reads.2, Bool.false_ne_true⟩
    rw [if_pos input, if_pos reads]
    cases workerRecv calls connection worker with
    | err errno => rfl
    | data bytes =>
        cases bytes with
        | nil => rfl
        | cons byte more => simp [readsOf, user]
  · have noInput :
        ¬ (event.meets epollin = true ∧
          ¬ event.meets epollerr = true) := by
      rintro ⟨input, noError⟩
      exact reads ⟨Bool.eq_false_iff.mpr noError, input⟩
    rw [if_neg noInput, if_neg reads]
    rfl

/-- The call behind an event. -/
theorem called_of_step
    {session next : Session} {conn : Nat} {connection : Connection}
    {event : EventMask} {calls : WorkerCalls}
    (present : session.master.connections conn = some connection)
    (stepped :
      tcpdnsStep conf session (.event conn event calls) = .ok next) :
    tcpdnsWorkerHandleEvent calls connection.userp event session.master =
      .ok next.master := by
  simp only [tcpdnsStep, present] at stepped
  cases called :
      tcpdnsWorkerHandleEvent calls connection.userp event
        session.master with
  | error fault =>
      rw [called] at stepped
      cases stepped
  | ok master =>
      rw [called] at stepped
      cases stepped
      rfl

/-- `tcpdns_send` makes this worker, or another one, or none. -/
theorem Follows.asks
    (follows : Follows id exchange) (kept : Kept exchange.session ids)
    {data : List UInt8} {dial : Dial}
    (stepped :
      exchangeStep conf exchange (.send data dial) = .ok after) :
    Follows id after := by
  rcases asked_tcpdnsSend conf dial data kept.sound with
    ⟨result, called, asked⟩
  simp only [exchangeStep, tcpdnsStep, wireEntries, called] at stepped
  cases asked with
  | refused errno =>
      cases stepped
      refine
        follows.frame rfl ?_ ?_ rfl rfl (Nat.le_refl _) fun young => young
      · rw [List.append_nil]
      · rw [List.append_nil]
  | made fresh =>
      cases stepped
      have new := data_of_asked kept.sound called
      by_cases same : exchange.session.master.allocated = id
      · cases follows with
        | unborn young unasked ungiven unread never =>
            refine .born (framed data) ?_ ?_ ?_ ?_
            · simp only [fresh.allocated]
              omega
            · rw [askedOf_append, unasked]
              simp [askedOf, same]
            · rw [givenOf_append, ungiven]
              exact inOrder_nil _
            · rw [givenOf_append, ungiven, ← same, new]
              rw [same]
              simp only [unread, never]
              exact .sends _ (List.nil_prefix) rfl rfl
        | born query old once inOrder role =>
            exact absurd same (Nat.ne_of_gt old)
      · refine
          follows.frame (fresh.workers id (Ne.symm same)) ?_ ?_ rfl rfl
            ?_ ?_
        · rw [askedOf_append]
          simp [askedOf, same]
        · rw [givenOf_append]
          exact List.append_nil _
        · simp only [fresh.allocated]
          omega
        · intro young
          simp only [fresh.allocated]
          omega

/-- An event of this worker, or of another one. -/
theorem Follows.tells
    (follows : Follows id exchange) (kept : Kept exchange.session ids)
    {conn : Nat} {connection : Connection} {worker : Worker}
    {event : EventMask} {calls : WorkerCalls} {next : Master}
    (pair :
      Pair exchange.session.master ids connection.userp worker conn
        connection)
    (waiting : worker.done = false)
    (apart : Apart exchange (.event conn event calls))
    (called :
      tcpdnsWorkerHandleEvent calls connection.userp event
        exchange.session.master = .ok next)
    (handled :
      Handled calls event exchange.session.master ids connection.userp
        worker conn connection next) :
    Follows id
      { session :=
          { master := next
            journal :=
              exchange.session.journal ++
                eventEntries event calls connection
                  exchange.session.master next }
        wire :=
          exchange.wire ++
            wireEntries conf exchange.session
              (.event conn event calls) } := by
  rcases of_eventEntries id event calls next pair.found with
    ⟨reads, answers⟩
  rcases @of_wireEntries conf id exchange.session conn connection worker
      event calls pair.present pair.found with ⟨unasked, given_⟩
  rcases moved_of_handled kept.sound pair rfl waiting handled with
    ⟨_, moved⟩
  by_cases same : connection.userp = id
  · subst same
    cases follows with
    | unborn young =>
        have old := kept.sound.young _ pair.member
        omega
    | born query old once inOrder role =>
        rw [pair.found] at role
        simp only [Apart, pair.present, pair.found, QuerySent, once,
          List.mem_singleton, forall_eq] at apart
        rcases role.tells inOrder waiting pair apart.1 apart.2 called
            handled with ⟨ordered, later⟩
        refine .born query ?_ ?_ ?_ ?_
        · simp only [moved.allocated]
          exact old
        · rw [askedOf_append, unasked, List.append_nil]
          exact once
        · rw [givenOf_append, given_, if_pos rfl]
          exact ordered
        · rw [givenOf_append, given_, if_pos rfl, readsOf_append, reads,
            List.flatten_append, flatten_readEntries event calls worker rfl,
            answersOf_append, answers, List.append_nil]
          exact later
  · refine
      follows.frame (handled.others.1 id (Ne.symm same)) ?_ ?_ ?_ ?_ ?_ ?_
    · rw [askedOf_append, unasked, List.append_nil]
    · rw [givenOf_append, given_, if_neg same, List.append_nil]
    · rw [readsOf_append, reads, readsOf_other event calls worker same,
        List.append_nil]
    · rw [answersOf_append, answers, List.append_nil]
    · simp only [moved.allocated]
      exact Nat.le_refl _
    · intro young
      simp only [moved.allocated]
      exact young

/-- `tcpdns_recv` returns the answer of this worker, or of another one. -/
theorem Follows.returns
    (follows : Follows id exchange) (kept : Kept exchange.session ids)
    {found size : Nat} {worker : Worker} {next : Master}
    (returned :
      Returned exchange.session.master next ids found worker) :
    Follows id
      { session :=
          { master := next
            journal :=
              exchange.session.journal ++
                [.returned found size
                  ((worker.buffer.drop 2).take size)] }
        wire := exchange.wire } := by
  have reads :=
    readsOf_returned id found size ((worker.buffer.drop 2).take size)
      exchange.session.journal
  by_cases same : found = id
  · subst same
    cases follows with
    | unborn young unasked ungiven unread never =>
        have old := kept.sound.young found (kept.sound.mem returned.found)
        omega
    | born query old once inOrder role =>
        rw [returned.found] at role
        refine .born query ?_ once inOrder ?_
        · simp only [returned.allocated]
          exact old
        · simp only [reads, answersOf_returned, returned.removed]
          have finished := returned.done_
          cases role with
          | sends => cases finished
          | receives => cases finished
          | done never =>
              rw [never]
              exact .returned size rfl
  · refine
      follows.frame (returned.others id (Ne.symm same)) rfl rfl reads ?_
        ?_ ?_
    · exact answersOf_returned_other same _ _ _
    · simp only [returned.allocated]
      exact Nat.le_refl _
    · intro young
      simp only [returned.allocated]
      exact young

/-- One turn which keeps the uses of the buffer apart. -/
theorem Follows.step
    (follows : Follows id exchange) (kept : Kept exchange.session ids)
    {turn : Turn} (permitted : tcpdnsEnabled exchange.session turn)
    (apart : Apart exchange turn)
    (stepped : exchangeStep conf exchange turn = .ok after) :
    Follows id after := by
  cases result : tcpdnsStep conf exchange.session turn with
  | error fault =>
      rw [exchangeStep, result] at stepped
      cases stepped
  | ok next =>
      have turned := turned_of_handled kept permitted result
      cases turn with
      | send data dial => exact follows.asks kept stepped
      | shakes conn proxy =>
          rw [exchangeStep, result] at stepped
          cases stepped
          simp only [wireEntries, List.append_nil]
          cases turned with
          | shakes present shaking =>
              exact
                follows.frame rfl rfl rfl rfl rfl (Nat.le_refl _)
                  fun young => young
      | event conn event calls =>
          rw [exchangeStep, result] at stepped
          cases stepped
          cases turned with
          | tells pair waiting handled =>
              have called := called_of_step pair.present result
              exact follows.tells kept pair waiting apart called handled
      | recv size =>
          rw [exchangeStep, result] at stepped
          cases stepped
          simp only [wireEntries, List.append_nil]
          cases turned with
          | finds_none => exact follows
          | returns returned => exact follows.returns kept returned

end Turns

/-! ## Runs -/

/-- The session of a run is one of the runs of the master. -/
theorem reachable_session
    {conf : Nspconf} {exchange : Exchange}
    (reachable : (exchangeSystem conf).Reachable exchange) :
    (tcpdnsSystem conf).Reachable exchange.session := by
  apply reachable.view Exchange.session
  · rintro source ⟨first, _⟩
    exact .start first
  · intro source turn target permitted stepped
    cases result : tcpdnsStep conf source.session turn with
    | error fault =>
        simp only [exchangeSystem, exchangeStep, result] at stepped
        cases stepped
    | ok next =>
        simp only [exchangeSystem, exchangeStep, result] at stepped
        cases stepped
        exact ⟨permitted, result⟩

/-- Every worker is followed through a run. -/
theorem follows_of_reachable
    {conf : Nspconf} {exchange : Exchange} (id : Nat)
    (reachable :
      ((exchangeSystem conf).restrict (fun _ => True) Apart).Reachable
        exchange) :
    Follows id exchange := by
  have invariant :
      (exchangeSystem conf).Reachable exchange ∧ Follows id exchange := by
    apply reachable.invariant
    · rintro source ⟨first, _⟩
      refine ⟨.start first, ?_⟩
      rcases first with ⟨created, silent⟩
      have start : source.session = ⟨tcpdnsCreate, []⟩ := created
      refine .unborn ?_ ?_ ?_ ?_ ?_
      · rw [start]
        exact Nat.zero_le id
      · rw [silent]
        rfl
      · rw [silent]
        rfl
      · rw [start]
        rfl
      · rw [start]
        rfl
    · rintro source turn target ⟨before, follows⟩ ⟨permitted, apart⟩ stepped
      rcases kept_of_reachable (reachable_session before) with ⟨ids, kept⟩
      exact
        ⟨.next before permitted stepped,
          follows.step kept permitted apart stepped⟩
  exact invariant.2

/--
In every run whose turns keep the uses of the buffer apart, no query is
mistaken for its answer.
-/
theorem tcpdns_query_not_mistaken
    (conf : Nspconf) {exchange : Exchange}
    (reachable :
      ((exchangeSystem conf).restrict (fun _ => True) Apart).Reachable
        exchange)
    (id : Nat) :
    Unmistaken id exchange :=
  (follows_of_reachable id reachable).unmistaken

instance (conf : Nspconf) (exchange : Exchange) (turn : Turn) :
    Decidable ((exchangeSystem conf).enabled exchange turn) :=
  inferInstanceAs (Decidable (tcpdnsEnabled exchange.session turn))

instance (conf : Nspconf) (exchange : Exchange) (turn : Turn) :
    Decidable
      (((exchangeSystem conf).restrict (fun _ => True) Apart).enabled
        exchange turn) :=
  inferInstanceAs
    (Decidable
      (tcpdnsEnabled exchange.session turn ∧ Apart exchange turn))

/-- No worker, and nothing on the wire. -/
def created : Exchange where
  session := { master := tcpdnsCreate, journal := [] }
  wire := []

/-- The query is sent in two parts, and then the answer is read. -/
def politeRun : List Turn :=
  [.send [3, 4] (sampleDial (framed [7])),
    .event 0 epollout (sampleCalls 1),
    .event 0 epollout (sampleCalls 9),
    .event 0 epollin (sampleCalls 99),
    .recv 512]

theorem tcpdns_query_not_mistaken_polite :
    ∃ exchange : Exchange,
      ((exchangeSystem sampleConf).restrict (fun _ => True)
        Apart).Reachable exchange ∧
      askedOf 0 exchange.wire = [framed [3, 4]] ∧
      (givenOf 0 exchange.wire).length = 2 ∧
      .returned 0 512 [7] ∈ exchange.session.journal ∧
      Unmistaken 0 exchange := by
  have start :
      ((exchangeSystem sampleConf).restrict (fun _ => True)
        Apart).Reachable created :=
    .start ⟨⟨rfl, rfl⟩, trivial⟩
  have replayed :
      (((exchangeSystem sampleConf).restrict (fun _ => True) Apart).replay
          created politeRun).map
        (fun exchange =>
          decide
            (askedOf 0 exchange.wire = [framed [3, 4]] ∧
              (givenOf 0 exchange.wire).length = 2 ∧
              .returned 0 512 [7] ∈ exchange.session.journal)) =
          some true := by
    decide +kernel
  rcases start.exists_replay replayed with ⟨exchange, reachable, tested⟩
  rcases of_decide_eq_true tested with ⟨asked, given_, member⟩
  exact
    ⟨exchange, reachable, asked, given_, member,
      tcpdns_query_not_mistaken sampleConf reachable 0⟩

/--
A nameserver which sends a byte before it has the query: the event tells of
`EPOLLIN` and of `EPOLLOUT`, and the first is handled.
-/
def hastyRun : List Turn :=
  [.send [3, 4] (sampleDial [9]),
    .event 0 (epollin ||| epollout) (sampleCalls 99),
    .recv 512]

/-- The query is handed over as its answer. -/
theorem tcpdns_query_mistaken :
    ∃ exchange : Exchange,
      (exchangeSystem sampleConf).Reachable exchange ∧
        .returned 0 512 [3, 4, 9] ∈ exchange.session.journal ∧
        readsOf 0 exchange.session.journal = [[9]] ∧
        ¬ Unmistaken 0 exchange := by
  have start : (exchangeSystem sampleConf).Reachable created :=
    .start ⟨rfl, rfl⟩
  have replayed :
      ((exchangeSystem sampleConf).replay created hastyRun).map
        (fun exchange =>
          decide
            (.returned 0 512 [3, 4, 9] ∈ exchange.session.journal ∧
              readsOf 0 exchange.session.journal = [[9]])) =
          some true := by
    decide +kernel
  rcases start.exists_replay replayed with ⟨exchange, reachable, tested⟩
  rcases of_decide_eq_true tested with ⟨member, reads⟩
  refine ⟨exchange, reachable, member, reads, ?_⟩
  intro unmistaken
  have same := unmistaken.answer 512 [3, 4, 9] member
  rw [reads] at same
  cases same

end Nsproxy.Tcpdns.Exchanges
