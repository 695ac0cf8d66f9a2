import Mathlib.Data.List.Perm.Subperm
import Nsproxy.Lib.Transition
import Nsproxy.Lwip.Udp

/-!
# TCP connections stay apart

Which pcb `tcp_input` gives a segment to: an active one, which is moved to the
front of `tcp_active_pcbs`; or one in TIME-WAIT; or else `nsproxy_fake_lpcb`,
which takes the address the segment was sent to, so that a SYN opens a
connection to any host.  What the pcb does with the segment is not looked at
here; it may stay, be freed, or move to TIME-WAIT.  Segments whose header or
checksum is broken are dropped before the search, and are left out.

A SYN opens a connection only if the forward for it can be created, which
connects to the proxy.  Where it cannot, `core_tcp_new` aborts the new pcb,
whose SYN+ACK is held back until then, and the application gets a RST for its
SYN.

`tcp_listen_pcbs` is empty.  The pcbs which `tcp_alloc` kills when there is no
memory are freed by events of their own.
-/

namespace Nsproxy.Lwip.TcpDemux

open Nsproxy.Conf
open Nsproxy.Lib.MoveToFront
open Nsproxy.Lib.Transition
open Nsproxy.Lwip.Udp (Flow isBroadcast isMulticast known_append)

/-! ## The stack -/

/-- The addresses and flags of a segment. -/
structure Segment where
  src : IpAddr
  srcPort : Nat
  dst : IpAddr
  dstPort : Nat
  syn : Bool
  ack : Bool
  rst : Bool
deriving DecidableEq, Repr

def Segment.flow (segment : Segment) : Flow where
  app := segment.src
  appPort := segment.srcPort
  target := segment.dst
  targetPort := segment.dstPort

/-- What of `struct tcp_pcb` the search looks at. -/
structure TcpPcb where
  id : Nat
  /-- `netif_idx`, unless it is `NETIF_NO_INDEX`. -/
  netifIdx : Option Nat
  localIp : IpAddr
  localPort : Nat
  remoteIp : IpAddr
  remotePort : Nat
deriving DecidableEq, Repr

def TcpPcb.flow (pcb : TcpPcb) : Flow where
  app := pcb.remoteIp
  appPort := pcb.remotePort
  target := pcb.localIp
  targetPort := pcb.localPort

/-- `tcp_active_pcbs` and `tcp_tw_pcbs`, and how many pcbs were opened. -/
structure Stack where
  active : List TcpPcb
  timeWait : List TcpPcb
  opened : Nat
deriving DecidableEq

/-- Where a segment goes. -/
inductive Outcome where
  | dropped
  /-- `tcp_process`. -/
  | processed (id : Nat)
  /-- `tcp_timewait_input`. -/
  | timewaitInput (id : Nat)
  /-- `tcp_listen_input` has made a pcb. -/
  | accepted (id : Nat)
  /-- `tcp_listen_input` answers an ACK with a RST. -/
  | reset
  /-- `core_tcp_new` has aborted the pcb of a SYN, which sends a RST. -/
  | aborted
  /-- `tcp_listen_input` does nothing, or could not make a pcb. -/
  | ignored
deriving DecidableEq, Repr

/-- The sender of the segment gets a RST for it. -/
def Outcome.sendsRst : Outcome → Bool
  | .reset | .aborted => true
  | _ => false

/-- How far `tcp_listen_input` comes with a SYN. -/
inductive Opening where
  /-- `tcp_alloc` returns `NULL`. -/
  | noPcb
  /-- `tcp_enqueue_flags` fails, and the pcb is abandoned in silence. -/
  | noSegment
  /-- `core_tcp_new` cannot create the proxy of the forward. -/
  | noForward
  | done
deriving DecidableEq, Repr

/-- The comparison of `tcp_input`, for the interface of the segment. -/
def TcpPcb.takes (netif : Nat) (segment : Segment) (pcb : TcpPcb) : Bool :=
  (match pcb.netifIdx with
    | none => true
    | some bound => decide (bound = netif)) &&
    (decide (pcb.remotePort = segment.srcPort) &&
      decide (pcb.localPort = segment.dstPort) &&
      decide (pcb.remoteIp = segment.src) &&
      decide (pcb.localIp = segment.dst))

/-- The pcb which `tcp_listen_input` makes for a SYN. -/
def newPcb (id : Nat) (segment : Segment) : TcpPcb where
  id := id
  netifIdx := none
  localIp := segment.dst
  localPort := segment.dstPort
  remoteIp := segment.src
  remotePort := segment.srcPort

/-- `TCP_PCB_REMOVE_ACTIVE`. -/
def removeActive (id : Nat) (active : List TcpPcb) : List TcpPcb :=
  active.eraseP (fun pcb => decide (pcb.id = id))

/--
`tcp_listen_input` for `nsproxy_fake_lpcb`.  A pcb is registered before its
SYN+ACK is queued and `core_tcp_new` is called; `tcp_abandon` takes it off the
list again.
-/
def tcpListenInput (stack : Stack) (segment : Segment)
    (opening : Opening) : Outcome × Stack :=
  if segment.rst then
    (.ignored, stack)
  else if segment.ack then
    (.reset, stack)
  else if segment.syn then
    let registered :=
      { stack with
        active := newPcb stack.opened segment :: stack.active
        opened := stack.opened + 1 }
    let abandoned :=
      { registered with
        active := removeActive stack.opened registered.active }
    match opening with
    | .noPcb => (.ignored, stack)
    | .noSegment => (.ignored, abandoned)
    | .noForward => (.aborted, abandoned)
    | .done => (.accepted stack.opened, registered)
  else
    (.ignored, stack)

/-- `tcp_input`, to the point where the pcb of the segment is known. -/
def tcpInput (netif : Nat) (stack : Stack) (segment : Segment)
    (opening : Opening) : Outcome × Stack :=
  if isBroadcast segment.dst || isMulticast segment.dst then
    (.dropped, stack)
  else
    match search (TcpPcb.takes netif segment) [] stack.active with
    | some (pcb, active) =>
        (.processed pcb.id, { stack with active := active })
    | none =>
        match stack.timeWait.find? (TcpPcb.takes netif segment) with
        | some pcb => (.timewaitInput pcb.id, stack)
        | none => tcpListenInput stack segment opening

/-- A pcb is freed, from either list. -/
def Stack.free (stack : Stack) (id : Nat) : Stack :=
  { stack with
    active := removeActive id stack.active
    timeWait := stack.timeWait.eraseP (fun pcb => decide (pcb.id = id)) }

/-- An active pcb enters TIME-WAIT. -/
def Stack.linger (stack : Stack) (id : Nat) : Stack :=
  match stack.active.find? (fun pcb => decide (pcb.id = id)) with
  | none => stack
  | some pcb =>
      { stack with
        active := removeActive id stack.active
        timeWait := pcb :: stack.timeWait }

/-! ## Runs -/

/-- The stack, with what its pcbs have got. -/
structure State where
  stack : Stack
  /-- The flows for which pcbs were opened; a pcb counts them. -/
  flows : List Flow
  received : List (Nat × Segment)

inductive Event where
  | input (segment : Segment) (opening : Opening)
  | free (id : Nat)
  | linger (id : Nat)

def State.record (state : State) (segment : Segment)
    (result : Outcome × Stack) : State where
  stack := result.2
  flows :=
    if state.stack.opened < result.2.opened then
      state.flows ++ [segment.flow]
    else
      state.flows
  received :=
    match result.1 with
    | .processed id => state.received ++ [(id, segment)]
    | .timewaitInput id => state.received ++ [(id, segment)]
    | .accepted id => state.received ++ [(id, segment)]
    | _ => state.received

def step (netif : Nat) (state : State) : Event → Except Empty State
  | .input segment opening =>
      .ok
        (state.record segment
          (tcpInput netif state.stack segment opening))
  | .free id => .ok { state with stack := state.stack.free id }
  | .linger id => .ok { state with stack := state.stack.linger id }

def system (netif : Nat) : System Empty State Event where
  initial state :=
    state =
      { stack := { active := [], timeWait := [], opened := 0 }
        flows := []
        received := [] }
  enabled _ _ := True
  step := step netif

instance (netif : Nat) (state : State) (event : Event) :
    Decidable ((system netif).enabled state event) :=
  inferInstanceAs (Decidable True)

/-! ## What holds of every state -/

/-- A pcb of the stack, among the flows which were opened. -/
structure Live (flows : List Flow) (pcb : TcpPcb) : Prop where
  flow : flows[pcb.id]? = some pcb.flow
  netif : pcb.netifIdx = none

structure State.Sound (state : State) : Prop where
  count : state.flows.length = state.stack.opened
  distinct :
    ((state.stack.active ++ state.stack.timeWait).map TcpPcb.flow).Nodup
  live :
    ∀ pcb ∈ state.stack.active ++ state.stack.timeWait,
      Live state.flows pcb
  received :
    ∀ entry ∈ state.received,
      state.flows[entry.1]? = some entry.2.flow

section Sound

variable {netif : Nat} {state : State} {segment : Segment} {pcb : TcpPcb}
  {flows : List Flow}

/-- A pcb takes the segments of its flow, and no others. -/
theorem Live.takes_iff (live : Live flows pcb) :
    pcb.takes netif segment = true ↔ pcb.flow = segment.flow := by
  simp only [TcpPcb.takes, live.netif, Bool.true_and, Bool.and_eq_true,
    decide_eq_true_eq, TcpPcb.flow, Segment.flow, Udp.Flow.mk.injEq]
  constructor
  · rintro ⟨⟨⟨remotePort, localPort⟩, remoteIp⟩, localIp⟩
    exact ⟨remoteIp, remotePort, localIp, localPort⟩
  · rintro ⟨remoteIp, remotePort, localIp, localPort⟩
    exact ⟨⟨⟨remotePort, localPort⟩, remoteIp⟩, localIp⟩

/-- Where a segment goes, by the flows of the lists. -/
theorem State.Sound.tcpInput_cases (sound : state.Sound)
    (segment : Segment) (opening : Opening) :
    (isBroadcast segment.dst || isMulticast segment.dst) = true ∧
      tcpInput netif state.stack segment opening =
        (.dropped, state.stack) ∨
    (isBroadcast segment.dst || isMulticast segment.dst) = false ∧
      ((∃ pcb others,
        tcpInput netif state.stack segment opening =
            (.processed pcb.id,
              { state.stack with active := pcb :: others }) ∧
          pcb ∈ state.stack.active ∧
          (pcb :: others).Perm state.stack.active ∧
          pcb.flow = segment.flow) ∨
      (∃ pcb,
        tcpInput netif state.stack segment opening =
            (.timewaitInput pcb.id, state.stack) ∧
          pcb ∈ state.stack.timeWait ∧ pcb.flow = segment.flow) ∨
      (tcpInput netif state.stack segment opening =
          tcpListenInput state.stack segment opening ∧
        ∀ pcb ∈ state.stack.active ++ state.stack.timeWait,
          pcb.flow ≠ segment.flow)) := by
  unfold tcpInput
  cases filtered :
      isBroadcast segment.dst || isMulticast segment.dst with
  | true => exact Or.inl ⟨rfl, rfl⟩
  | false =>
      refine Or.inr ⟨rfl, ?_⟩
      have live := sound.live
      simp only [Bool.false_eq_true, if_false]
      cases found : search (TcpPcb.takes netif segment) []
          state.stack.active with
      | some pair =>
          rcases pair with ⟨pcb, active⟩
          rcases front_of_search found with ⟨others, rfl⟩
          have member := mem_of_search found
          have takes := test_of_search found
          have own := live pcb (List.mem_append_left _ member)
          exact
            Or.inl
              ⟨pcb, others, rfl, member, perm_of_search found,
                own.takes_iff.mp takes⟩
      | none =>
          have fails := search_eq_none.mp found
          cases waiting : state.stack.timeWait.find?
              (TcpPcb.takes netif segment) with
          | some pcb =>
              have member := List.mem_of_find?_eq_some waiting
              have takes := List.find?_some waiting
              have own := live pcb (List.mem_append_right _ member)
              exact
                Or.inr
                  (Or.inl ⟨pcb, rfl, member, own.takes_iff.mp takes⟩)
          | none =>
              have strangers := List.find?_eq_none.mp waiting
              refine Or.inr (Or.inr ⟨rfl, ?_⟩)
              intro pcb member same
              have takes : pcb.takes netif segment = true :=
                (live pcb member).takes_iff.mpr same
              rcases List.mem_append.mp member with first | second
              · have fails := fails pcb first
                rw [takes] at fails
                cases fails
              · exact strangers pcb second takes

/-- What changes the lists may lose pcbs and rearrange them. -/
theorem State.Sound.restack (sound : state.Sound) {stack : Stack}
    (count : stack.opened = state.stack.opened)
    (fewer :
      (stack.active ++ stack.timeWait).Subperm
        (state.stack.active ++ state.stack.timeWait)) :
    ({ state with stack := stack } : State).Sound :=
  { count := sound.count.trans count.symm
    distinct := by
      rcases fewer with ⟨same, perm, sublist⟩
      have kept := sound.distinct.sublist (sublist.map TcpPcb.flow)
      exact (perm.map TcpPcb.flow).nodup_iff.mp kept
    live := fun pcb member => sound.live pcb (fewer.subset member)
    received := sound.received }

/-- A segment which a pcb of its flow gets is recorded. -/
theorem State.Sound.hear (sound : state.Sound)
    (live : Live state.flows pcb) (flow : pcb.flow = segment.flow) :
    ({ state with
        received := state.received ++ [(pcb.id, segment)] } :
      State).Sound :=
  { sound with
    received := by
      intro entry member
      rcases List.mem_append.mp member with older | newer
      · exact sound.received entry older
      · cases List.mem_singleton.mp newer
        rw [live.flow, flow] }

/-- A pcb which is opened, and abandoned before it could hear anything. -/
theorem State.Sound.abandon (sound : state.Sound)
    (segment : Segment) :
    ({ state with
        stack := { state.stack with opened := state.stack.opened + 1 }
        flows := state.flows ++ [segment.flow] } : State).Sound where
  count := by simp [sound.count]
  distinct := sound.distinct
  live := fun pcb member =>
    { sound.live pcb member with
      flow := known_append (sound.live pcb member).flow _ }
  received := fun entry member =>
    known_append (sound.received entry member) _

/-- A pcb which is opened for a new connection, and has got the SYN. -/
theorem State.Sound.accept (sound : state.Sound)
    (new :
      ∀ pcb ∈ state.stack.active ++ state.stack.timeWait,
        pcb.flow ≠ segment.flow) :
    ({ stack :=
        { state.stack with
          active := newPcb state.stack.opened segment :: state.stack.active
          opened := state.stack.opened + 1 }
       flows := state.flows ++ [segment.flow]
       received :=
        state.received ++ [(state.stack.opened, segment)] } :
      State).Sound := by
  have counted := sound.abandon segment
  have known :
      (state.flows ++ [segment.flow])[state.stack.opened]? =
        some segment.flow := by
    rw [← sound.count]
    exact List.getElem?_concat_length
  constructor
  · exact counted.count
  · apply List.nodup_cons.mpr
    refine ⟨?_, sound.distinct⟩
    intro taken
    rcases List.mem_map.mp taken with ⟨pcb, member, same⟩
    exact new pcb member same
  · intro pcb member
    rcases List.mem_cons.mp member with rfl | present
    · exact ⟨known, rfl⟩
    · exact counted.live pcb present
  · intro entry member
    rcases List.mem_append.mp member with before | newer
    · exact counted.received entry before
    · cases List.mem_singleton.mp newer
      exact known

theorem removeActive_newPcb
    (id : Nat) (segment : Segment) (active : List TcpPcb) :
    removeActive id (newPcb id segment :: active) = active :=
  List.eraseP_cons_of_pos (decide_eq_true rfl)

theorem State.Sound.listen (sound : state.Sound)
    (new :
      ∀ pcb ∈ state.stack.active ++ state.stack.timeWait,
        pcb.flow ≠ segment.flow)
    (opening : Opening) :
    (state.record segment
      (tcpListenInput state.stack segment opening)).Sound := by
  have unchanged (outcome : Outcome)
      (silent : outcome = .ignored ∨ outcome = .reset) :
      state.record segment (outcome, state.stack) = state := by
    rcases silent with rfl | rfl
    · simp [State.record]
    · simp [State.record]
  unfold tcpListenInput
  split
  · rw [unchanged .ignored (.inl rfl)]
    exact sound
  · split
    · rw [unchanged .reset (.inr rfl)]
      exact sound
    · split
      · cases opening with
        | noPcb =>
            rw [unchanged .ignored (.inl rfl)]
            exact sound
        | noSegment =>
            simpa [State.record, removeActive_newPcb] using
              sound.abandon segment
        | noForward =>
            simpa [State.record, removeActive_newPcb] using
              sound.abandon segment
        | done => simpa [State.record] using sound.accept new
      · rw [unchanged .ignored (.inl rfl)]
        exact sound

theorem State.Sound.step (sound : state.Sound) {event : Event}
    {later : State} (handled : step netif state event = .ok later) :
    later.Sound := by
  cases event with
  | input segment opening =>
      cases handled
      rcases sound.tcpInput_cases segment opening with
        ⟨_, result⟩ | ⟨_, ⟨pcb, others, result, member, same, flow⟩ |
          ⟨pcb, result, member, flow⟩ | ⟨result, new⟩⟩
      · rw [result]
        simpa [State.record] using sound
      · rw [result]
        have live := sound.live pcb (List.mem_append_left _ member)
        have moved :
            ({ state with
              stack := { state.stack with active := pcb :: others } } :
                State).Sound :=
          sound.restack rfl
            (same.append_right state.stack.timeWait).subperm
        simpa [State.record] using moved.hear live flow
      · rw [result]
        have live := sound.live pcb (List.mem_append_right _ member)
        simpa [State.record] using sound.hear live flow
      · rw [result]
        exact sound.listen new opening
  | free id =>
      cases handled
      exact
        sound.restack rfl
          (List.eraseP_sublist.append List.eraseP_sublist).subperm
  | linger id =>
      cases handled
      cases found :
          state.stack.active.find? (fun pcb => decide (pcb.id = id)) with
      | none =>
          rw [Stack.linger, found]
          exact sound
      | some pcb =>
          have whole :=
            (perm_of_find found).append_right state.stack.timeWait
          rw [Stack.linger, found]
          exact sound.restack rfl (List.perm_middle.trans whole).subperm

theorem sound_of_reachable
    (reachable : (system netif).Reachable state) : state.Sound := by
  apply reachable.invariant
  · rintro source rfl
    exact
      { count := rfl
        distinct := List.nodup_nil
        live := fun _ absent => nomatch absent
        received := fun _ absent => nomatch absent }
  · intro source event target sound _ handled
    exact sound.step handled

end Sound

/-! ## What becomes of a SYN -/

section Opening

variable (stack : Stack) (segment : Segment) (opening : Opening)

theorem accepted_tcpListenInput :
    (tcpListenInput stack segment opening).1 = .accepted stack.opened ↔
      segment.syn = true ∧ segment.ack = false ∧ segment.rst = false ∧
        opening = .done := by
  unfold tcpListenInput
  cases segment.rst <;> cases segment.ack <;> cases segment.syn <;>
    cases opening <;> simp

theorem sendsRst_tcpListenInput :
    (tcpListenInput stack segment opening).1.sendsRst = true ↔
      segment.rst = false ∧
        (segment.ack = true ∨
          segment.syn = true ∧ opening = .noForward) := by
  unfold tcpListenInput
  cases segment.rst <;> cases segment.ack <;> cases segment.syn <;>
    cases opening <;> simp [Outcome.sendsRst]

/-- Only a pcb which is accepted stays on the list. -/
theorem lists_tcpListenInput :
    (tcpListenInput stack segment opening).2.timeWait = stack.timeWait ∧
      (tcpListenInput stack segment opening).2.active =
        if (tcpListenInput stack segment opening).1 =
            .accepted stack.opened then
          newPcb stack.opened segment :: stack.active
        else
          stack.active := by
  unfold tcpListenInput
  cases segment.rst <;> cases segment.ack <;> cases segment.syn <;>
    cases opening <;> simp [removeActive_newPcb]

end Opening

/-! ## Results -/

/--
No two pcbs, active or in TIME-WAIT, have the same connection; and every
segment which a pcb has ever got is of the connection it was opened for.
-/
theorem connections_stay_apart
    (netif : Nat) {state : State}
    (reachable : (system netif).Reachable state) :
    ((state.stack.active ++ state.stack.timeWait).map
        TcpPcb.flow).Nodup ∧
      ∀ id segment, (id, segment) ∈ state.received →
        state.flows[id]? = some segment.flow := by
  have sound := sound_of_reachable reachable
  exact ⟨sound.distinct, fun id segment => sound.received (id, segment)⟩

/-- A SYN from this port of the application. -/
def sampleSyn (port : Nat) : Segment where
  src := .v4 (Vector.replicate 4 10)
  srcPort := port
  dst := .v4 (Vector.replicate 4 8)
  dstPort := 443
  syn := true
  ack := false
  rst := false

/-- The ACK which follows it. -/
def sampleAck (port : Nat) : Segment :=
  { sampleSyn port with syn := false, ack := true }

/--
Two connections were opened, between them one which the proxy refused; the
first of them lingers, and the other one has got an ACK.
-/
def sampleState : State where
  stack :=
    { active := [newPcb 2 (sampleSyn 40002)]
      timeWait := [newPcb 0 (sampleSyn 40000)]
      opened := 3 }
  flows :=
    [(sampleSyn 40000).flow, (sampleSyn 40001).flow,
      (sampleSyn 40002).flow]
  received :=
    [(0, sampleSyn 40000), (2, sampleSyn 40002), (2, sampleAck 40002)]

def sampleEvents : List Event :=
  [.input (sampleSyn 40000) .done, .input (sampleSyn 40001) .noForward,
    .input (sampleSyn 40002) .done, .linger 0,
    .input (sampleAck 40002) .done]

theorem sampleState_reachable : (system 1).Reachable sampleState := by
  have replayed :
      (system 1).replay
          { stack := { active := [], timeWait := [], opened := 0 }
            flows := []
            received := [] }
          sampleEvents =
        some sampleState := by
    rfl
  exact (System.Reachable.start rfl).replay replayed

theorem connections_stay_apart_sample :
    ((sampleState.stack.active ++ sampleState.stack.timeWait).map
        TcpPcb.flow).Nodup ∧
      ∀ id segment, (id, segment) ∈ sampleState.received →
        sampleState.flows[id]? = some segment.flow :=
  connections_stay_apart 1 sampleState_reachable

/--
A segment to a single host goes to the pcb of its connection, wherever it
stands in either list.  Where there is none, a connection is opened exactly
for a plain SYN whose pcb and forward can be made, and nothing else changes
the lists; a RST is sent exactly for an ACK, and for a plain SYN whose forward
cannot be created; a RST is answered with nothing.
-/
theorem segment_finds_its_connection
    (netif : Nat) {state : State} {segment : Segment}
    (reachable : (system netif).Reachable state)
    (single :
      (isBroadcast segment.dst || isMulticast segment.dst) = false)
    (opening : Opening) :
    (∀ pcb ∈ state.stack.active, pcb.flow = segment.flow →
      ∃ others,
        tcpInput netif state.stack segment opening =
            (.processed pcb.id,
              { state.stack with active := pcb :: others }) ∧
          (pcb :: others).Perm state.stack.active) ∧
    (∀ pcb ∈ state.stack.timeWait, pcb.flow = segment.flow →
      tcpInput netif state.stack segment opening =
        (.timewaitInput pcb.id, state.stack)) ∧
    ((∀ pcb ∈ state.stack.active ++ state.stack.timeWait,
        pcb.flow ≠ segment.flow) →
      ((tcpInput netif state.stack segment opening).1 =
          .accepted state.stack.opened ↔
        segment.syn = true ∧ segment.ack = false ∧
          segment.rst = false ∧ opening = .done) ∧
      ((tcpInput netif state.stack segment opening).1.sendsRst = true ↔
        segment.rst = false ∧
          (segment.ack = true ∨
            segment.syn = true ∧ opening = .noForward)) ∧
      (tcpInput netif state.stack segment opening).2.timeWait =
        state.stack.timeWait ∧
      (tcpInput netif state.stack segment opening).2.active =
        if (tcpInput netif state.stack segment opening).1 =
            .accepted state.stack.opened then
          newPcb state.stack.opened segment :: state.stack.active
        else
          state.stack.active) := by
  have sound := sound_of_reachable reachable
  have unique :
      ∀ first ∈ state.stack.active ++ state.stack.timeWait,
        ∀ second ∈ state.stack.active ++ state.stack.timeWait,
          first.flow = segment.flow → second.flow = segment.flow →
            second = first :=
    fun first one second other own same =>
      eq_of_key sound.distinct one other (same.trans own.symm)
  have apart :
      ∀ first ∈ state.stack.active, ∀ second ∈ state.stack.timeWait,
        first.flow ≠ second.flow := by
    intro first one second other same
    have distinct := sound.distinct
    rw [List.map_append] at distinct
    exact
      (List.nodup_append.mp distinct).2.2 _ (List.mem_map_of_mem one) _
        (List.mem_map_of_mem other) same
  rcases sound.tcpInput_cases segment opening with
    ⟨filtered, _⟩ | ⟨_, ⟨found, others, result, member, same, flow⟩ |
      ⟨found, result, member, flow⟩ | ⟨result, new⟩⟩
  · rw [single] at filtered
    cases filtered
  · refine ⟨?_, ?_, ?_⟩
    · intro pcb present own
      have one := unique found (List.mem_append_left _ member) pcb
        (List.mem_append_left _ present) flow own
      subst one
      exact ⟨others, result, same⟩
    · intro pcb present own
      exact absurd (flow.trans own.symm) (apart found member pcb present)
    · intro strangers
      exact absurd flow (strangers found (List.mem_append_left _ member))
  · refine ⟨?_, ?_, ?_⟩
    · intro pcb present own
      exact absurd (own.trans flow.symm) (apart pcb present found member)
    · intro pcb present own
      have one := unique found (List.mem_append_right _ member) pcb
        (List.mem_append_right _ present) flow own
      rw [result, one]
    · intro strangers
      exact absurd flow (strangers found (List.mem_append_right _ member))
  · refine ⟨?_, ?_, ?_⟩
    · intro pcb present own
      exact absurd own (new pcb (List.mem_append_left _ present))
    · intro pcb present own
      exact absurd own (new pcb (List.mem_append_right _ present))
    · intro _
      rw [result]
      exact
        ⟨accepted_tcpListenInput state.stack segment opening,
          sendsRst_tcpListenInput state.stack segment opening,
          lists_tcpListenInput state.stack segment opening⟩

/-- A SYN of a fourth connection, to a host which the proxy refuses. -/
theorem segment_finds_its_connection_sample :
    (∀ pcb ∈ sampleState.stack.active,
        pcb.flow = (sampleSyn 40003).flow →
      ∃ others,
        tcpInput 1 sampleState.stack (sampleSyn 40003) .noForward =
            (.processed pcb.id,
              { sampleState.stack with active := pcb :: others }) ∧
          (pcb :: others).Perm sampleState.stack.active) ∧
    (∀ pcb ∈ sampleState.stack.timeWait,
        pcb.flow = (sampleSyn 40003).flow →
      tcpInput 1 sampleState.stack (sampleSyn 40003) .noForward =
        (.timewaitInput pcb.id, sampleState.stack)) ∧
    ((∀ pcb ∈ sampleState.stack.active ++ sampleState.stack.timeWait,
        pcb.flow ≠ (sampleSyn 40003).flow) →
      ((tcpInput 1 sampleState.stack (sampleSyn 40003) .noForward).1 =
          .accepted sampleState.stack.opened ↔
        (sampleSyn 40003).syn = true ∧ (sampleSyn 40003).ack = false ∧
          (sampleSyn 40003).rst = false ∧
          Opening.noForward = .done) ∧
      ((tcpInput 1 sampleState.stack (sampleSyn 40003)
          .noForward).1.sendsRst = true ↔
        (sampleSyn 40003).rst = false ∧
          ((sampleSyn 40003).ack = true ∨
            (sampleSyn 40003).syn = true ∧
              Opening.noForward = .noForward)) ∧
      (tcpInput 1 sampleState.stack (sampleSyn 40003)
          .noForward).2.timeWait =
        sampleState.stack.timeWait ∧
      (tcpInput 1 sampleState.stack (sampleSyn 40003)
          .noForward).2.active =
        if (tcpInput 1 sampleState.stack (sampleSyn 40003)
            .noForward).1 = .accepted sampleState.stack.opened then
          newPcb sampleState.stack.opened (sampleSyn 40003) ::
            sampleState.stack.active
        else
          sampleState.stack.active) :=
  segment_finds_its_connection 1 sampleState_reachable (by decide)
    .noForward

/-- The proxy refuses the connection, and the application is told so. -/
example :
    (tcpInput 1 sampleState.stack (sampleSyn 40003) .noForward).1 =
      .aborted := rfl

end Nsproxy.Lwip.TcpDemux
