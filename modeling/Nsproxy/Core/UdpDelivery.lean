import Mathlib.Tactic.Common
import Nsproxy.Lib.Transition
import Nsproxy.Core.UdpQueue

/-!
# Delivery from the receive queue

A forward is created, receives datagrams, is given a proxy object when the
association has succeeded, and is destroyed.  The history tells which
datagrams were sent, with their bytes, and which were freed.

`Ledger` keeps the books: a datagram which arrived is in the queue or was
freed once, and what was sent was freed.  In every run, a forward which waits
has the last eight datagrams in its queue, and once it has a proxy object its
queue is empty.

The last part relates the queue to the list of chains in the model of whole
UDP flows.
-/

namespace Nsproxy.Core.UdpDelivery

open Nsproxy.Lib.ArrayQueue
open Nsproxy.Lib.Handlers
open Nsproxy.Lib.Transition
open Nsproxy.Lwip.Buffers
open Nsproxy.Skutils
open Nsproxy.Core.UdpFlows (rcvqLen idleTimeout)
open Nsproxy.Core.UdpQueue

/-! ## What a history tells -/

/-- The datagrams which were handed to `proxy_send`, with their bytes. -/
def sends (trace : List QueueAction) : List (Nat × List UInt8) :=
  trace.filterMap fun
    | .proxySend number bytes => some (number, bytes)
    | _ => none

/-- The datagrams which were freed. -/
def frees (trace : List QueueAction) : List Nat :=
  trace.filterMap fun
    | .pbufFree number => some number
    | _ => none

@[simp]
theorem sends_append (first second : List QueueAction) :
    sends (first ++ second) = sends first ++ sends second := by
  simp [sends]

@[simp]
theorem frees_append (first second : List QueueAction) :
    frees (first ++ second) = frees first ++ frees second := by
  simp [frees]

@[simp]
theorem sends_sending (items : List Datagram) :
    sends (items.map sending) = items.map Datagram.contents := by
  simp [sends, sending, Function.comp_def, List.filterMap_map,
    Datagram.contents]

@[simp]
theorem frees_sending (items : List Datagram) :
    frees (items.map sending) = [] := by
  simp [frees, sending, Function.comp_def, List.filterMap_map]

@[simp]
theorem sends_freeing (items : List Datagram) :
    sends (items.map freeing) = [] := by
  simp [sends, freeing, Function.comp_def, List.filterMap_map]

@[simp]
theorem frees_freeing (items : List Datagram) :
    frees (items.map freeing) = items.map Datagram.number := by
  simp [frees, freeing, Function.comp_def, List.filterMap_map]

@[simp]
theorem sends_proxyEvctl : sends [.proxyEvctl] = [] := rfl

@[simp]
theorem frees_proxyEvctl : frees [.proxyEvctl] = [] := rfl

@[simp]
theorem sends_destroying (fwd : UdpForward) (items : List Datagram) :
    sends (destroying fwd items) = [] := by
  rw [destroying, sends_append, sends_freeing]
  split <;> rfl

@[simp]
theorem frees_destroying (fwd : UdpForward) (items : List Datagram) :
    frees (destroying fwd items) =
      items.reverse.map Datagram.number := by
  rw [destroying, frees_append, frees_freeing]
  split <;> simp [frees]

theorem mem_frees_iff (trace : List QueueAction) (number : Nat) :
    number ∈ frees trace ↔ .pbufFree number ∈ trace := by
  simp only [frees, List.mem_filterMap]
  constructor
  · rintro ⟨action, member, freed⟩
    cases action with
    | pbufFree other =>
        simp only [Option.some.injEq] at freed
        rw [← freed]
        exact member
    | proxySend other bytes => cases freed
    | proxyEvctl => cases freed
    | udpRemove => cases freed
    | proxyPut => cases freed
  · intro member
    exact ⟨_, member, rfl⟩

/--
The books of a forward: the datagrams which arrived, those in the queue, and
the history.
-/
structure Ledger (arrived items : List Datagram)
    (trace : List QueueAction) : Prop where
  numbered :
    arrived.map Datagram.number = List.range arrived.length
  waiting : ∀ p ∈ items, p ∈ arrived
  settled :
    (frees trace ++ items.map Datagram.number).Perm
      (arrived.map Datagram.number)
  exactly :
    ∀ sent ∈ sends trace, sent ∈ arrived.map Datagram.contents
  once : ((sends trace).map Prod.fst).Nodup
  freed : ∀ number ∈ (sends trace).map Prod.fst, number ∈ frees trace

namespace Ledger

variable {arrived items : List Datagram} {trace : List QueueAction}

theorem nodup (ledger : Ledger arrived items trace) :
    (frees trace ++ items.map Datagram.number).Nodup := by
  rw [ledger.settled.nodup_iff, ledger.numbered]
  exact List.nodup_range

theorem fresh (ledger : Ledger arrived items trace) {Kernel : Type}
    (kernel : Kernel) :
    Fresh (⟨kernel, trace⟩ : World Kernel) items where
  alive p member freed := by
    have apart := (List.nodup_append.mp ledger.nodup).2.2
    exact apart p.number ((mem_frees_iff trace p.number).mpr freed)
      p.number (List.mem_map_of_mem member) rfl
  apart := (List.nodup_append.mp ledger.nodup).2.1

/-- A datagram arrives. -/
theorem arrive
    (ledger : Ledger arrived items trace) {p : Datagram}
    (numbered : p.number = arrived.length) :
    Ledger (arrived ++ [p]) (items ++ [p]) trace where
  numbered := by
    rw [List.map_append, ledger.numbered, List.length_append,
      List.length_singleton, List.range_succ, List.map_singleton,
      numbered]
  waiting other member := by
    rcases List.mem_append.mp member with old | new
    · exact List.mem_append_left _ (ledger.waiting other old)
    · exact List.mem_append_right _ new
  settled := by
    rw [List.map_append, List.map_append, ← List.append_assoc]
    exact ledger.settled.append_right _
  exactly sent member := by
    rw [List.map_append]
    exact List.mem_append_left _ (ledger.exactly sent member)
  once := ledger.once
  freed := ledger.freed

/--
Some datagrams of the queue are sent and some are freed, those which were sent
among them.
-/
theorem work
    (ledger : Ledger arrived items trace)
    (sent : List Datagram)
    {actions : List QueueAction} {kept : List Datagram}
    (sending : sends actions = sent.map Datagram.contents)
    (queued : sent.Sublist items)
    (split : (frees actions ++ kept.map Datagram.number).Perm
      (items.map Datagram.number))
    (remaining : ∀ p ∈ kept, p ∈ items)
    (gone : ∀ p ∈ sent, p.number ∈ frees actions) :
    Ledger arrived kept (trace ++ actions) where
  numbered := ledger.numbered
  waiting p member := ledger.waiting p (remaining p member)
  settled := by
    rw [frees_append, List.append_assoc]
    exact (split.append_left _).trans ledger.settled
  exactly entry member := by
    rw [sends_append, sending] at member
    rcases List.mem_append.mp member with before | now
    · exact ledger.exactly entry before
    · rcases List.mem_map.mp now with ⟨p, inside, rfl⟩
      exact List.mem_map_of_mem (ledger.waiting p (queued.subset inside))
  once := by
    have contents :
        (sends actions).map Prod.fst = sent.map Datagram.number := by
      rw [sending, List.map_map]
      rfl
    have parts := List.nodup_append.mp ledger.nodup
    have among : (sent.map Datagram.number).Sublist
        (items.map Datagram.number) :=
      queued.map _
    rw [sends_append, List.map_append, contents]
    apply List.nodup_append.mpr
    refine ⟨ledger.once, parts.2.1.sublist among, ?_⟩
    intro before sentBefore now sentNow
    exact parts.2.2 before (ledger.freed before sentBefore) now
      (among.subset sentNow)
  freed number member := by
    rw [sends_append, List.map_append] at member
    rw [frees_append]
    rcases List.mem_append.mp member with before | now
    · exact List.mem_append_left _ (ledger.freed number before)
    · rw [sending, List.map_map] at now
      rcases List.mem_map.mp now with ⟨p, inside, rfl⟩
      exact List.mem_append_right _ (gone p inside)

end Ledger

/-! ## Runs of a forward -/

/-- `proxy_send` with given results; further calls send everything. -/
def answer (bytes : List UInt8) :
    List (Except Errno Nat) → Except Errno Nat × List (Except Errno Nat)
  | [] => (.ok bytes.length, [])
  | result :: rest => (result, rest)

/-- A forward from its creation on. -/
structure QueueState where
  fwd : Option UdpForward
  arrived : List Datagram
  trace : List QueueAction
deriving DecidableEq

/-- The events of a forward, with the results of `proxy_send`. -/
inductive QueueEvent where
  | received (p : Datagram) (results : List (Except Errno Nat))
  | receivedNull
  | associated (created : Bool) (results : List (Except Errno Nat))
  | writable (results : List (Except Errno Nat))
  /-- Any other reason to destroy the forward. -/
  | destroyed

/-- The function which handles an event. -/
def handle (garbage : Nat → UInt8) (fwd : UdpForward) :
    QueueEvent →
      Routine (List (Except Errno Nat)) (Option UdpForward)
  | .received p _ => udpLwipReceived answer garbage (some p) fwd
  | .receivedNull => udpLwipReceived answer garbage none fwd
  | .associated created _ => settlePending answer garbage created fwd
  | .writable _ => udpProxyOutput answer garbage fwd
  | .destroyed => do
      udpForwardDestroy fwd
      return none

def QueueEvent.results : QueueEvent → List (Except Errno Nat)
  | .received _ results => results
  | .associated _ results => results
  | .writable results => results
  | _ => []

def QueueEvent.arrival : QueueEvent → List Datagram
  | .received p _ => [p]
  | _ => []

/-- Handle an event of a forward which still exists. -/
def queueStep
    (garbage : Nat → UInt8) (state : QueueState) (event : QueueEvent) :
    Except QueueFault QueueState :=
  match state.fwd with
  | none => .ok state
  | some fwd =>
      match handle garbage fwd event ⟨event.results, state.trace⟩ with
      | .error fault => .error fault
      | .ok (left, world) =>
          .ok ⟨left, state.arrived ++ event.arrival, world.trace⟩

/--
A new datagram has a number of its own, and a forward without a proxy object
is not told that it may write.
-/
def queueEnabled (state : QueueState) (event : QueueEvent) : Prop :=
  state.fwd.isSome = true ∧
    match event with
    | .received p _ => p.number = state.arrived.length
    | .writable _ => state.fwd.any UdpForward.proxy = true
    | _ => True

instance (state : QueueState) :
    (event : QueueEvent) → Decidable (queueEnabled state event)
  | .received _ _ | .writable _ =>
      inferInstanceAs (Decidable (_ ∧ _))
  | .receivedNull | .associated _ _ | .destroyed =>
      inferInstanceAs (Decidable (_ ∧ True))

/-- A new forward, with a proxy object or without. -/
def created (proxy : Bool) (localPort : UInt16) : QueueState where
  fwd := some
    { proxy := proxy, localPort := localPort,
      rcvq := Slots.clear Datagram rcvqLen, nrcvq := 0,
      gc := idleTimeout localPort }
  arrived := []
  trace := []

/-- A forward as its events come. -/
def queueSystem (garbage : Nat → UInt8) :
    System QueueFault QueueState QueueEvent where
  initial state := ∃ proxy localPort, state = created proxy localPort
  enabled := queueEnabled
  step := queueStep garbage

instance (garbage : Nat → UInt8) (state : QueueState)
    (event : QueueEvent) :
    Decidable ((queueSystem garbage).enabled state event) :=
  inferInstanceAs (Decidable (queueEnabled state event))

/-- The queue was sent, up to the first fatal error among the results. -/
def Settled
    (items : List Datagram) (results : List (Except Errno Nat))
    (before after : QueueState) : Prop :=
  match (results.take items.length).findIdx? fatal with
  | none =>
      (∃ left, after.fwd = some left ∧ left.proxy = true ∧
        left.nrcvq = 0) ∧
        sends after.trace =
          sends before.trace ++ items.map Datagram.contents ∧
        frees after.trace =
          frees before.trace ++ items.map Datagram.number
  | some index =>
      after.fwd = none ∧
        sends after.trace =
          sends before.trace ++
            (items.take (index + 1)).map Datagram.contents ∧
        frees after.trace =
          frees before.trace ++ items.reverse.map Datagram.number

/-- What `attempt` does is decided by the first fatal result. -/
theorem attempt_answer
    (items : List Datagram) (results : List (Except Errno Nat))
    (trace : List QueueAction) :
    ∃ rest,
      attempt answer items ⟨results, trace⟩ =
        match (results.take items.length).findIdx? fatal with
        | none => (true, ⟨rest, trace ++ items.map sending⟩)
        | some index =>
            (false,
              ⟨rest, trace ++ (items.take (index + 1)).map sending⟩) := by
  induction items generalizing results trace with
  | nil =>
      exact ⟨results, by simp [attempt]⟩
  | cons p items induction =>
      cases results with
      | nil =>
          rcases induction [] (trace ++ [sending p]) with ⟨rest, later⟩
          refine ⟨rest, ?_⟩
          simp only [List.take_nil, List.findIdx?_nil] at later
          have mild : fatal (.ok p.chain.bytes.length) = false := rfl
          simp only [attempt, afterSend, answer, mild,
            Bool.false_eq_true, if_false, later, List.take_nil,
            List.findIdx?_nil, List.append_assoc]
          rfl
      | cons result results =>
          cases deadly : fatal result with
          | true =>
              refine ⟨results, ?_⟩
              simp [attempt, afterSend, answer, deadly,
                List.findIdx?_cons]
          | false =>
              rcases induction results (trace ++ [sending p]) with
                ⟨rest, later⟩
              refine ⟨rest, ?_⟩
              simp only [attempt, afterSend, answer, deadly,
                Bool.false_eq_true, if_false, later, List.length_cons,
                List.take_succ_cons, List.findIdx?_cons]
              cases (results.take items.length).findIdx? fatal with
              | none => simp
              | some index => simp

/-! ## What holds in every run -/

/-- A state whose queue consists of these datagrams. -/
structure Sound (state : QueueState) (items : List Datagram) : Prop where
  ledger : Ledger state.arrived items state.trace
  gone : state.fwd = none → items = []
  queued : ∀ fwd, state.fwd = some fwd → Queued fwd items
  connected :
    ∀ fwd, state.fwd = some fwd → fwd.proxy = true → items = []
  pending :
    ∀ fwd, state.fwd = some fwd → fwd.proxy = false →
      items = state.arrived.rtake rcvqLen ∧ sends state.trace = []

section Steps

variable {garbage : Nat → UInt8}
variable {arrived items : List Datagram} {trace : List QueueAction}
variable {fwd : UdpForward}

/-- Nothing is left of a forward. -/
theorem Ledger.sound_gone
    (ledger : Ledger arrived [] trace) :
    Sound ⟨none, arrived, trace⟩ [] where
  ledger := ledger
  gone _ := rfl
  queued other present := by cases present
  connected other present := by cases present
  pending other present := by cases present

/-- A forward with a proxy object and an empty queue. -/
theorem Ledger.sound_connected
    (ledger : Ledger arrived [] trace)
    (linked : fwd.proxy = true) (empty : fwd.nrcvq = 0) :
    Sound ⟨some fwd, arrived, trace⟩ [] where
  ledger := ledger
  gone _ := rfl
  queued other present := by
    cases present
    exact ⟨Slots.holds_nil fwd.rcvq, empty⟩
  connected other present _ := rfl
  pending other present waits := by
    cases present
    rw [linked] at waits
    cases waits

theorem Ledger.destroy
    (ledger : Ledger arrived items trace) (fwd : UdpForward) :
    Ledger arrived [] (trace ++ destroying fwd items) := by
  apply ledger.work []
  · exact sends_destroying fwd items
  · exact List.nil_sublist items
  · rw [frees_destroying, List.map_nil, List.append_nil]
    exact (List.reverse_perm items).map _
  · intro p member
    cases member
  · intro p member
    cases member

/-- The queue was sent and freed. -/
theorem Ledger.deliver (ledger : Ledger arrived items trace) :
    Ledger arrived []
      (trace ++
        (items.map sending ++ (items.map freeing ++ [.proxyEvctl]))) := by
  apply ledger.work items
  · simp
  · exact List.Sublist.refl items
  · simp
  · intro p member
    cases member
  · intro p member
    simpa using ⟨p, member, rfl⟩

/-- The queue was sent in part, and freed. -/
theorem Ledger.breakOff
    (ledger : Ledger arrived items trace) (fwd : UdpForward)
    (count : Nat) :
    Ledger arrived []
      (trace ++
        ((items.take count).map sending ++ destroying fwd items)) := by
  apply ledger.work (items.take count)
  · rw [sends_append, sends_sending, sends_destroying, List.append_nil]
  · exact List.take_sublist count items
  · rw [frees_append, frees_sending, List.nil_append, frees_destroying,
      List.map_nil, List.append_nil]
    exact (List.reverse_perm items).map _
  · intro p member
    cases member
  · intro p member
    rw [frees_append, frees_destroying]
    apply List.mem_append_right
    exact List.mem_map_of_mem
      (List.mem_reverse.mpr (List.mem_of_mem_take member))

/-- `udp_proxy_output` on a forward with a proxy object. -/
theorem udpProxyOutput_settles
    (ledger : Ledger arrived items trace) (queued : Queued fwd items)
    (linked : fwd.proxy = true) (results : List (Except Errno Nat))
    (before : Option UdpForward) (early : List Datagram) :
    ∃ left world,
      udpProxyOutput answer garbage fwd ⟨results, trace⟩ =
          .ok (left, world) ∧
        Sound ⟨left, arrived, world.trace⟩ [] ∧
        Settled items results ⟨before, early, trace⟩
          ⟨left, arrived, world.trace⟩ := by
  have output :=
    @udpProxyOutput_apply _ answer garbage fwd items queued
      ⟨results, trace⟩ (ledger.fresh results)
  rcases attempt_answer items results trace with ⟨rest, attempted⟩
  rw [output, attempted]
  cases found : (results.take items.length).findIdx? fatal with
  | none =>
      refine ⟨_, _, rfl, ?_, ?_⟩
      · simp only [World.record, List.append_assoc]
        exact ledger.deliver.sound_connected linked rfl
      · simp only [Settled, found]
        refine ⟨⟨_, rfl, linked, rfl⟩, ?_, ?_⟩
        · simp [World.record]
        · simp [World.record]
  | some index =>
      refine ⟨_, _, rfl, ?_, ?_⟩
      · simp only [World.record, List.append_assoc]
        exact (ledger.breakOff fwd (index + 1)).sound_gone
      · simp only [Settled, found]
        refine ⟨trivial, ?_, ?_⟩
        · rw [World.record, sends_append, sends_append, sends_sending,
            sends_destroying, List.append_nil]
        · rw [World.record, frees_append, frees_append, frees_sending,
            frees_destroying, List.append_nil]

theorem udpForwardDestroy_sound
    (ledger : Ledger arrived items trace) (queued : Queued fwd items)
    (results : List (Except Errno Nat)) :
    ∃ world,
      udpForwardDestroy fwd ⟨results, trace⟩ = .ok ((), world) ∧
        Sound ⟨none, arrived, world.trace⟩ [] :=
  ⟨_, udpForwardDestroy_apply queued (ledger.fresh results),
    (ledger.destroy fwd).sound_gone⟩

theorem pushed_rtake (arrived : List Datagram) (p : Datagram) :
    pushed (arrived.rtake rcvqLen) p =
      (arrived ++ [p]).rtake rcvqLen := by
  by_cases full : rcvqLen ≤ arrived.length
  · rw [pushed, length_rtake, Nat.min_eq_right full, if_pos rfl,
      rtake_concat_of_le full (by decide)]
  · have room : arrived.length < rcvqLen := Nat.lt_of_not_le full
    rw [pushed, length_rtake, Nat.min_eq_left (Nat.le_of_lt room),
      if_neg (Nat.ne_of_lt room), rtake_concat_of_lt room]

theorem dropped_append_pushed (items : List Datagram) (p : Datagram) :
    dropped items ++ pushed items p = items ++ [p] := by
  by_cases full : items.length = rcvqLen
  · rw [dropped, pushed, if_pos full, if_pos full, ← List.append_assoc]
    cases items with
    | nil => rfl
    | cons oldest rest => rfl
  · rw [dropped, pushed, if_neg full, if_neg full, List.nil_append]

/-- The books after a datagram was put on the queue. -/
theorem Ledger.push
    (ledger : Ledger arrived items trace) {p : Datagram}
    (numbered : p.number = arrived.length) :
    Ledger (arrived ++ [p]) (pushed items p)
      (trace ++ (dropped items).map freeing) := by
  have whole := dropped_append_pushed items p
  apply (ledger.arrive numbered).work []
  · simp
  · exact List.nil_sublist _
  · rw [frees_freeing, ← List.map_append, whole]
  · intro other member
    rw [← whole]
    exact List.mem_append_right _ member
  · intro other member
    cases member

/-- A handled event of a forward which exists. -/
theorem queueStep_of_handle
    {state : QueueState} (present : state.fwd = some fwd)
    (event : QueueEvent) {left : Option UdpForward}
    {after : List QueueAction}
    (handled : ∃ kernel,
      handle garbage fwd event ⟨event.results, state.trace⟩ =
        .ok (left, ⟨kernel, after⟩)) :
    queueStep garbage state event =
      .ok ⟨left, state.arrived ++ event.arrival, after⟩ := by
  rcases handled with ⟨kernel, handled⟩
  simp only [queueStep, present, handled]

/-- The forward is destroyed, with the datagrams in its queue. -/
theorem handle_destroys
    {state : QueueState} (sound : Sound state items)
    (present : state.fwd = some fwd) {event : QueueEvent}
    (quiet : event.arrival = [])
    (destroys : handle garbage fwd event = do
      udpForwardDestroy fwd
      return none) :
    ∃ next, queueStep garbage state event = .ok next ∧ Sound next [] := by
  rcases udpForwardDestroy_sound sound.ledger (sound.queued fwd present)
    event.results with ⟨world, destroyed, next⟩
  refine ⟨⟨none, state.arrived ++ event.arrival, world.trace⟩, ?_, ?_⟩
  · apply queueStep_of_handle present event
    refine ⟨world.kernel, ?_⟩
    rw [destroys]
    simp only [bind_apply, destroyed, ok_bind, pure_apply]
  · rw [quiet, List.append_nil]
    exact next

/-- A datagram arrives at a forward which waits. -/
theorem received_waits
    {state : QueueState} (sound : Sound state items)
    (present : state.fwd = some fwd) (waits : fwd.proxy = false)
    {p : Datagram} (numbered : p.number = state.arrived.length)
    (results : List (Except Errno Nat)) :
    ∃ next,
      queueStep garbage state (.received p results) = .ok next ∧
        Sound next (pushed items p) := by
  rcases enqueue_apply (sound.queued fwd present)
    (sound.ledger.fresh results) p with ⟨rcvq, nrcvq, queues, queued⟩
  rcases sound.pending fwd present waits with ⟨last, silent⟩
  refine ⟨⟨some { fwd with rcvq := rcvq, nrcvq := nrcvq },
    state.arrived ++ [p], state.trace ++ (dropped items).map freeing⟩,
    ?_, ?_⟩
  · apply queueStep_of_handle present (.received p results)
    refine ⟨results, ?_⟩
    simp only [handle, udpLwipReceived, bind_apply,
      QueueEvent.results, queues, ok_bind, waits, Bool.false_eq_true,
      if_false, pure_apply]
    rfl
  · refine ⟨sound.ledger.push numbered, ?_, ?_, ?_, ?_⟩
    · intro gone
      cases gone
    · intro other same
      cases same
      exact queued
    · intro other same linked
      cases same
      rw [waits] at linked
      cases linked
    · intro other same _
      cases same
      refine ⟨?_, ?_⟩
      · rw [last, pushed_rtake]
      · simp [silent]

/-- A datagram arrives at a forward with a proxy object. -/
theorem received_settles
    {state : QueueState} (sound : Sound state items)
    (present : state.fwd = some fwd) (linked : fwd.proxy = true)
    {p : Datagram} (numbered : p.number = state.arrived.length)
    (results : List (Except Errno Nat)) :
    ∃ next,
      queueStep garbage state (.received p results) = .ok next ∧
        Sound next [] ∧ Settled [p] results state next := by
  have empty := sound.connected fwd present linked
  subst empty
  rcases enqueue_apply (sound.queued fwd present)
    (sound.ledger.fresh results) p with ⟨rcvq, nrcvq, queues, queued⟩
  have none_dropped : (dropped []).map freeing = [] := rfl
  rw [none_dropped, record_nil] at queues
  have ledger := sound.ledger.push numbered
  rw [none_dropped, List.append_nil] at ledger
  rcases @udpProxyOutput_settles garbage _ _ _ _ ledger queued linked
    results state.fwd state.arrived with
    ⟨left, world, output, next, settled⟩
  refine ⟨_, queueStep_of_handle present (.received p results)
    ⟨world.kernel, ?_⟩, next, settled⟩
  simp only [handle, udpLwipReceived, bind_apply,
    QueueEvent.results, queues, ok_bind, if_pos linked]
  exact output

/-- The association has succeeded. -/
theorem associated_settles
    {state : QueueState} (sound : Sound state items)
    (present : state.fwd = some fwd) (waits : fwd.proxy = false)
    (results : List (Except Errno Nat)) :
    ∃ next,
      queueStep garbage state (.associated true results) = .ok next ∧
        Sound next [] ∧ Settled items results state next := by
  have queued := sound.queued fwd present
  have joined : Queued { fwd with proxy := true } items :=
    ⟨queued.holds, queued.count⟩
  by_cases filled : 0 < fwd.nrcvq
  · rcases @udpProxyOutput_settles garbage _ _ _ _ sound.ledger joined
      rfl results state.fwd state.arrived with
      ⟨left, world, output, next, settled⟩
    refine ⟨⟨left, state.arrived ++ [], world.trace⟩, ?_, ?_, ?_⟩
    · apply queueStep_of_handle present (.associated true results)
      refine ⟨world.kernel, ?_⟩
      simp only [handle, settlePending, waits, Bool.false_eq_true,
        if_false, if_true, if_pos filled, QueueEvent.results]
      exact output
    · rw [List.append_nil]
      exact next
    · rw [List.append_nil]
      exact settled
  · have empty : items = [] := by
      apply List.length_eq_zero_iff.mp
      rw [← queued.count]
      exact Nat.eq_zero_of_not_pos filled
    have none_queued : fwd.nrcvq = 0 := Nat.eq_zero_of_not_pos filled
    subst empty
    refine ⟨⟨some { fwd with proxy := true }, state.arrived ++ [],
      state.trace⟩, ?_, ?_, ?_⟩
    · apply queueStep_of_handle present (.associated true results)
      refine ⟨results, ?_⟩
      simp only [handle, settlePending, waits, Bool.false_eq_true,
        if_false, if_true, if_neg filled, QueueEvent.results,
        pure_apply]
    · rw [List.append_nil]
      exact sound.ledger.sound_connected rfl none_queued
    · simp only [Settled, List.length_nil, List.take_zero,
        List.findIdx?_nil]
      exact ⟨⟨_, rfl, rfl, none_queued⟩, by simp, by simp⟩

/-- The proxy object of a forward may be written. -/
theorem writable_settles
    {state : QueueState} (sound : Sound state items)
    (present : state.fwd = some fwd) (linked : fwd.proxy = true)
    (results : List (Except Errno Nat)) :
    ∃ next,
      queueStep garbage state (.writable results) = .ok next ∧
        Sound next [] := by
  rcases @udpProxyOutput_settles garbage _ _ _ _ sound.ledger
    (sound.queued fwd present) linked results state.fwd state.arrived with
    ⟨left, world, output, next, _⟩
  refine ⟨⟨left, state.arrived ++ [], world.trace⟩, ?_, ?_⟩
  · exact queueStep_of_handle present (.writable results)
      ⟨world.kernel, output⟩
  · rw [List.append_nil]
    exact next

/-- The association has succeeded for a forward which does not wait for it. -/
theorem associated_stays
    {state : QueueState} (sound : Sound state items)
    (present : state.fwd = some fwd) (linked : fwd.proxy = true)
    (made : Bool) (results : List (Except Errno Nat)) :
    ∃ next,
      queueStep garbage state (.associated made results) = .ok next ∧
        Sound next items := by
  refine ⟨⟨some fwd, state.arrived ++ [], state.trace⟩, ?_, ?_⟩
  · apply queueStep_of_handle present (.associated made results)
    refine ⟨results, ?_⟩
    simp only [handle, settlePending, linked, if_true,
      QueueEvent.results, pure_apply]
  · have same : (⟨some fwd, state.arrived ++ [], state.trace⟩ :
        QueueState) = state := by
      rw [List.append_nil, ← present]
    rw [same]
    exact sound

/-- Every event is handled, and leaves the books in order. -/
theorem queueStep_sound
    {state : QueueState} (sound : Sound state items)
    {event : QueueEvent} (permitted : queueEnabled state event) :
    ∃ next kept,
      queueStep garbage state event = .ok next ∧ Sound next kept := by
  rcases Option.isSome_iff_exists.mp permitted.1 with ⟨fwd, present⟩
  cases event with
  | received p results =>
      cases linked : fwd.proxy with
      | false =>
          exact (received_waits sound present linked permitted.2
            results).imp fun next step => ⟨_, step⟩
      | true =>
          exact (received_settles sound present linked permitted.2
            results).imp fun next step => ⟨_, step.1, step.2.1⟩
  | associated made results =>
      cases linked : fwd.proxy with
      | false =>
          cases made with
          | true =>
              exact (associated_settles sound present linked
                results).imp fun next step => ⟨_, step.1, step.2.1⟩
          | false =>
              have destroys :
                  handle garbage fwd (.associated false results) = do
                    udpForwardDestroy fwd
                    return none := by
                simp [handle, settlePending, linked]
              exact (handle_destroys sound present rfl destroys).imp
                fun next step => ⟨_, step⟩
      | true =>
          exact (associated_stays sound present linked made
            results).imp fun next step => ⟨_, step⟩
  | writable results =>
      have linked : fwd.proxy = true := by
        have told := permitted.2
        rw [present] at told
        exact told
      exact (writable_settles sound present linked results).imp
        fun next step => ⟨_, step⟩
  | receivedNull =>
      have destroys :
          handle garbage fwd .receivedNull = do
            udpForwardDestroy fwd
            return none :=
        rfl
      exact (handle_destroys sound present rfl destroys).imp
        fun next step => ⟨_, step⟩
  | destroyed =>
      have destroys :
          handle garbage fwd .destroyed = do
            udpForwardDestroy fwd
            return none :=
        rfl
      exact (handle_destroys sound present rfl destroys).imp
        fun next step => ⟨_, step⟩

end Steps

/-- A forward begins with an empty queue. -/
theorem sound_created (proxy : Bool) (localPort : UInt16) :
    Sound (created proxy localPort) [] where
  ledger :=
    { numbered := rfl
      waiting := by
        intro p member
        cases member
      settled := List.Perm.refl _
      exactly := by
        intro sent member
        cases member
      once := List.nodup_nil
      freed := by
        intro number member
        cases member }
  gone _ := rfl
  queued fwd present := by
    cases present
    exact ⟨Slots.holds_nil _, rfl⟩
  connected fwd present _ := rfl
  pending fwd present _ := ⟨rfl, rfl⟩

/-- The books are in order in every run. -/
theorem reachable_sound
    {garbage : Nat → UInt8} {state : QueueState}
    (reachable : (queueSystem garbage).Reachable state) :
    ∃ items, Sound state items := by
  apply reachable.invariant
  · rintro source ⟨proxy, localPort, rfl⟩
    exact ⟨[], sound_created proxy localPort⟩
  · rintro source event target ⟨items, sound⟩ permitted handled
    rcases @queueStep_sound garbage _ _ sound event permitted with
      ⟨next, kept, stepped, nextSound⟩
    have same : queueStep garbage source event = .ok target := handled
    rw [stepped] at same
    cases same
    exact ⟨kept, nextSound⟩

/-- What holds of a forward which waits for the association. -/
structure Waits
    (garbage : Nat → UInt8) (state : QueueState) (fwd : UdpForward) :
    Prop where
  count : fwd.nrcvq = min state.arrived.length rcvqLen
  last : fwd.rcvq.Holds (state.arrived.rtake rcvqLen)
  silent : sends state.trace = []
  /-- When the association succeeds, the queue is sent and freed. -/
  flush :
    ∀ results, ∃ next,
      queueStep garbage state (.associated true results) = .ok next ∧
        Settled (state.arrived.rtake rcvqLen) results state next

/-- What holds of a forward with a proxy object. -/
structure Connected
    (garbage : Nat → UInt8) (state : QueueState) (fwd : UdpForward) :
    Prop where
  empty : fwd.nrcvq = 0
  /-- The next datagram is sent and freed at once. -/
  next :
    ∀ p results, p.number = state.arrived.length → ∃ next,
      queueStep garbage state (.received p results) = .ok next ∧
        Settled [p] results state next

/-- Every datagram is kept, sent and freed as it should be. -/
structure Delivers
    (garbage : Nat → UInt8) (state : QueueState) : Prop where
  bounded : ∀ fwd, state.fwd = some fwd → fwd.nrcvq ≤ rcvqLen
  waits :
    ∀ fwd, state.fwd = some fwd → fwd.proxy = false →
      Waits garbage state fwd
  connected :
    ∀ fwd, state.fwd = some fwd → fwd.proxy = true →
      Connected garbage state fwd
  /-- What was sent are the bytes of datagrams which arrived. -/
  exactly :
    ∀ sent ∈ sends state.trace,
      sent ∈ state.arrived.map Datagram.contents
  sentOnce : ((sends state.trace).map Prod.fst).Nodup
  freedOnce : (frees state.trace).Nodup
  /-- When the forward is gone, every datagram was freed. -/
  allFreed :
    state.fwd = none →
      (frees state.trace).Perm (state.arrived.map Datagram.number)

theorem Sound.waits
    {garbage : Nat → UInt8} {state : QueueState} {items : List Datagram}
    (sound : Sound state items) {fwd : UdpForward}
    (present : state.fwd = some fwd) (waiting : fwd.proxy = false) :
    Waits garbage state fwd := by
  rcases sound.pending fwd present waiting with ⟨last, silent⟩
  have queued := sound.queued fwd present
  refine ⟨?_, ?_, silent, ?_⟩
  · rw [queued.count, last, length_rtake]
  · rw [← last]
    exact queued.holds
  · intro results
    rcases @associated_settles garbage _ _ _ sound present waiting
      results with ⟨next, stepped, _, settled⟩
    rw [last] at settled
    exact ⟨next, stepped, settled⟩

theorem Sound.is_connected
    {garbage : Nat → UInt8} {state : QueueState} {items : List Datagram}
    (sound : Sound state items) {fwd : UdpForward}
    (present : state.fwd = some fwd) (linked : fwd.proxy = true) :
    Connected garbage state fwd := by
  constructor
  · rw [(sound.queued fwd present).count,
      sound.connected fwd present linked, List.length_nil]
  · intro p results numbered
    rcases @received_settles garbage _ _ _ sound present linked p numbered
      results with ⟨next, stepped, _, settled⟩
    exact ⟨next, stepped, settled⟩

/--
In every run, a forward which waits has the last datagrams in its queue, as
many as fit, and hands each of them to the proxy once when the association has
succeeded; every datagram is freed once.
-/
theorem receive_queue_delivers
    {garbage : Nat → UInt8} {state : QueueState}
    (reachable : (queueSystem garbage).Reachable state) :
    Delivers garbage state := by
  rcases reachable_sound reachable with ⟨items, sound⟩
  have apart := List.nodup_append.mp sound.ledger.nodup
  refine ⟨?_, ?_, ?_, sound.ledger.exactly, sound.ledger.once, apart.1, ?_⟩
  · intro fwd present
    have queued := sound.queued fwd present
    rw [queued.count]
    exact queued.holds.length_le
  · intro fwd present waiting
    exact sound.waits present waiting
  · intro fwd present linked
    exact sound.is_connected present linked
  · intro gone
    have settled := sound.ledger.settled
    rw [sound.gone gone, List.map_nil, List.append_nil] at settled
    exact settled

/-- A datagram of one byte. -/
def sampleDatagram (number : Nat) (byte : UInt8) : Datagram where
  number := number
  chain := PbufChain.pbufAlloc [byte]
  present := by
    intro empty
    cases empty
  short := by
    rw [PbufChain.bytes_pbufAlloc (by simp)]
    simp

/-- Nine datagrams arrive at a forward which waits. -/
def sampleEvents : List QueueEvent :=
  (List.range 9).map fun number =>
    .received (sampleDatagram number number.toUInt8) []

theorem receive_queue_delivers_ninth :
    ∃ state,
      (queueSystem fun _ => 0).Reachable state ∧
        (state.fwd.any (fun fwd => !fwd.proxy) &&
          decide (frees state.trace = [0])) = true ∧
        Delivers (fun _ => 0) state := by
  have start :
      (queueSystem fun _ => 0).Reachable (created false 53) :=
    .start ⟨false, 53, rfl⟩
  have passes :
      ((queueSystem fun _ => 0).replay (created false 53)
          sampleEvents).map
        (fun state => state.fwd.any (fun fwd => !fwd.proxy) &&
          decide (frees state.trace = [0])) =
      some true := by
    decide +kernel
  rcases start.exists_replay passes with ⟨state, reachable, tested⟩
  exact ⟨state, reachable, tested, receive_queue_delivers reachable⟩

/-! ## The queue in the model of whole flows -/

/-- `proxy_send` of a flow, whose result is all right or fatal. -/
def flowSend
    (proxy : UdpFlows.UdpProxy) (bytes : List UInt8)
    (core : UdpFlows.CoreCtx) : Except Errno Nat × UdpFlows.CoreCtx :=
  match UdpFlows.udpProxySend proxy bytes core with
  | (true, next) => (.ok bytes.length, next)
  | (false, next) => (.error .econnaborted, next)

/-- The flow has the chains of the queued datagrams on its list. -/
structure Shows
    (fwd : UdpForward) (flow : UdpFlows.UdpForward)
    (items : List Datagram) : Prop where
  queued : Queued fwd items
  chains : flow.rcvq = items.map Datagram.chain
  port : flow.localPort = fwd.localPort
  idle : flow.gc = fwd.gc
  linked : flow.proxy.isSome = fwd.proxy

/-- Both are gone, or both are left with the same queue. -/
def SameLeft :
    Option UdpForward → Option UdpFlows.UdpForward → Prop
  | none, none => True
  | some fwd, some flow => ∃ items, Shows fwd flow items
  | _, _ => False

theorem attempt_flowSend
    (proxy : UdpFlows.UdpProxy) (items : List Datagram)
    (core : UdpFlows.CoreCtx) (trace : List QueueAction) :
    ∃ later,
      attempt (flowSend proxy) items ⟨core, trace⟩ =
        ((UdpFlows.sendAll proxy (items.map Datagram.chain) core).1,
          ⟨(UdpFlows.sendAll proxy (items.map Datagram.chain) core).2,
            later⟩) := by
  induction items generalizing core trace with
  | nil =>
      exact ⟨trace, rfl⟩
  | cons p rest induction =>
      cases sent : UdpFlows.udpProxySend proxy p.chain.bytes core with
      | mk went next =>
          have result :
              flowSend proxy p.chain.bytes core =
                (if went then .ok p.chain.bytes.length
                  else .error .econnaborted, next) := by
            simp only [flowSend, sent]
            cases went <;> rfl
          cases went with
          | false =>
              refine ⟨trace ++ [sending p], ?_⟩
              simp only [attempt, afterSend, result, List.map_cons,
                UdpFlows.sendAll, sent]
              rfl
          | true =>
              rcases induction next (trace ++ [sending p]) with
                ⟨later, rest_sent⟩
              refine ⟨later, ?_⟩
              simp only [attempt, afterSend, result, List.map_cons,
                UdpFlows.sendAll, sent, ← rest_sent]
              rfl

section Flows

variable {garbage : Nat → UInt8} {proxy : UdpFlows.UdpProxy}
variable {fwd : UdpForward} {flow : UdpFlows.UdpForward}
variable {items : List Datagram} {core : UdpFlows.CoreCtx}
variable {trace : List QueueAction}

/-- `udp_proxy_output` in both models. -/
theorem udpProxyOutput_flow
    (shows : Shows fwd flow items)
    (fresh : Fresh (⟨core, trace⟩ : World UdpFlows.CoreCtx) items) :
    ∃ left later,
      udpProxyOutput (flowSend proxy) garbage fwd ⟨core, trace⟩ =
          .ok (left,
            ⟨(UdpFlows.udpProxyOutput proxy flow core).2, later⟩) ∧
        SameLeft left (UdpFlows.udpProxyOutput proxy flow core).1 := by
  rcases attempt_flowSend proxy items core trace with ⟨later, attempted⟩
  have output :=
    @udpProxyOutput_apply _ (flowSend proxy) garbage fwd items
      shows.queued ⟨core, trace⟩ fresh
  rw [attempted] at output
  rw [output, UdpFlows.udpProxyOutput, shows.chains]
  cases UdpFlows.sendAll proxy (items.map Datagram.chain) core with
  | mk went next =>
      cases went with
      | false =>
          exact ⟨_, _, rfl, trivial⟩
      | true =>
          refine ⟨_, _, rfl, [], ?_⟩
          exact ⟨⟨Slots.holds_nil _, rfl⟩, rfl, shows.port,
            congrArg idleTimeout shows.port, shows.linked⟩

/-- The queues after a datagram has arrived. -/
theorem Shows.push
    (shows : Shows fwd flow items) (p : Datagram)
    {rcvq : Slots Datagram rcvqLen} {nrcvq : Nat}
    (queued :
      Queued { fwd with rcvq := rcvq, nrcvq := nrcvq }
        (pushed items p)) :
    Shows { fwd with rcvq := rcvq, nrcvq := nrcvq }
      (UdpFlows.enqueueDatagram flow p.chain) (pushed items p) where
  queued := queued
  chains := by
    simp only [UdpFlows.enqueueDatagram, shows.chains, pushed,
      List.length_map]
    split
    · simp [List.map_tail]
    · simp
  port := shows.port
  idle := shows.idle
  linked := shows.linked

theorem isNull_datagram (p : Datagram) : p.chain.isNull = false := by
  apply Bool.eq_false_iff.mpr
  intro absent
  exact p.present ((PbufChain.isNull_iff p.chain).mp absent)

/-- `udp_lwip_received` in both models, for a flow which waits. -/
theorem udpLwipReceived_waiting
    (shows : Shows fwd flow items)
    (fresh : Fresh (⟨core, trace⟩ : World UdpFlows.CoreCtx) items)
    (waits : flow.proxy = none) (p : Datagram) :
    ∃ left later,
      udpLwipReceived (flowSend proxy) garbage (some p) fwd
            ⟨core, trace⟩ =
          .ok (left,
            ⟨(UdpFlows.udpLwipReceived p.chain flow core).2, later⟩) ∧
        SameLeft left
          (UdpFlows.udpLwipReceived p.chain flow core).1 := by
  have unlinked : fwd.proxy = false := by
    rw [← shows.linked, waits]
    rfl
  have received :
      UdpFlows.udpLwipReceived p.chain flow core =
        (some (UdpFlows.enqueueDatagram flow p.chain), core) := by
    simp only [UdpFlows.udpLwipReceived, isNull_datagram, waits,
      Bool.false_eq_true, if_false]
  rcases enqueue_apply shows.queued fresh p with
    ⟨rcvq, nrcvq, queues, queued⟩
  rw [received]
  refine ⟨some { fwd with rcvq := rcvq, nrcvq := nrcvq },
    trace ++ (dropped items).map freeing, ?_, pushed items p,
    shows.push p queued⟩
  simp only [udpLwipReceived, bind_apply, queues, ok_bind, unlinked,
    Bool.false_eq_true, if_false, pure_apply]
  rfl

/-- `udp_lwip_received` in both models, for a connected flow. -/
theorem udpLwipReceived_connected
    (shows : Shows fwd flow items) {p : Datagram}
    (fresh : Fresh (⟨core, trace⟩ : World UdpFlows.CoreCtx) items)
    (later : Fresh
      (⟨core, trace ++ (dropped items).map freeing⟩ :
        World UdpFlows.CoreCtx) (pushed items p))
    (linked : flow.proxy = some proxy) :
    ∃ left after,
      udpLwipReceived (flowSend proxy) garbage (some p) fwd
            ⟨core, trace⟩ =
          .ok (left,
            ⟨(UdpFlows.udpLwipReceived p.chain flow core).2, after⟩) ∧
        SameLeft left
          (UdpFlows.udpLwipReceived p.chain flow core).1 := by
  have joined : fwd.proxy = true := by
    rw [← shows.linked, linked]
    rfl
  have received :
      UdpFlows.udpLwipReceived p.chain flow core =
        UdpFlows.udpProxyOutput proxy
          (UdpFlows.enqueueDatagram flow p.chain) core := by
    simp only [UdpFlows.udpLwipReceived, isNull_datagram, linked,
      Bool.false_eq_true, if_false]
  rcases enqueue_apply shows.queued fresh p with
    ⟨rcvq, nrcvq, queues, queued⟩
  rcases @udpProxyOutput_flow garbage proxy _ _ _ _ _
    (shows.push p queued) later with ⟨left, after, output, same⟩
  rw [received]
  refine ⟨left, after, ?_, same⟩
  simp only [udpLwipReceived, bind_apply, queues, ok_bind,
    if_pos joined]
  exact output

end Flows

end Nsproxy.Core.UdpDelivery
