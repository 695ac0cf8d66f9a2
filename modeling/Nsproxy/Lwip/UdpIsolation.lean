import Nsproxy.Lib.Transition
import Nsproxy.Lwip.Udp

/-!
# UDP flows stay apart

In any run of the stack, a forward gets the datagrams of one flow, and what it
sends back goes to the application's end of that flow, from the other end.
Two exceptions are the application's own: a datagram to the limited broadcast
address may go to another flow of the same ports, and an unspecified address
matches every other one, so runs with datagrams from or to it are left out.
So are runs with datagrams to port 0: `udp_send` takes the port of their pcb
for missing, and binds the pcb to another one.
-/

namespace Nsproxy.Lwip.Udp

open Nsproxy.Conf
open Nsproxy.Lib.MoveToFront
open Nsproxy.Lib.Transition

/-! ## Runs -/

/-- The stack, with what was made, received and sent by its forwards. -/
structure State where
  stack : Stack
  /-- The flows for which forwards were made; a pcb counts them. -/
  flows : List Flow
  received : List (Nat × Datagram)
  sent : List (Nat × Datagram)

inductive Event where
  | input (datagram : Datagram) (accepts intact : Bool)
  /-- `udp_forward_destroy`. -/
  | destroy (id : Nat)
  /-- `udp_send`, where `udp_bind` may find a port. -/
  | send (id : Nat) (bound : Option Nat) (data : List UInt8)

/-- A datagram which makes `udp_input` look for another pcb leaves a trace. -/
def State.record (state : State) (datagram : Datagram)
    (result : Outcome × Stack) : State where
  stack := result.2
  flows :=
    if state.stack.made < result.2.made then
      state.flows ++ [datagram.flow]
    else
      state.flows
  received :=
    match result.1 with
    | .received id => state.received ++ [(id, datagram)]
    | _ => state.received
  sent := state.sent

def step (netif : Netif) (state : State) : Event → Except Empty State
  | .input datagram accepts intact =>
      .ok
        (state.record datagram
          (udpInput netif state.stack datagram accepts intact))
  | .destroy id =>
      .ok
        { state with
          stack :=
            { state.stack with pcbs := udpRemove id state.stack.pcbs } }
  | .send id bound data =>
      match state.stack.pcbs.find? (fun pcb => decide (pcb.id = id)) with
      | none => .ok state
      | some pcb =>
          match udpSend netif pcb bound data with
          | none => .ok state
          | some (later, datagram) =>
              .ok
                { state with
                  stack :=
                    { state.stack with
                      pcbs :=
                        state.stack.pcbs.map
                          (fun other =>
                            if other.id = id then later else other) }
                  sent := state.sent ++ [(id, datagram)] }

/-- Neither end is unspecified, and the datagram has a port to go to. -/
def Ordinary (datagram : Datagram) : Prop :=
  isAny datagram.src = false ∧ isAny datagram.dst = false ∧
    datagram.dstPort ≠ 0

def system (netif : Netif) : System Empty State Event where
  initial state :=
    state =
      { stack := { pcbs := [], made := 0 }
        flows := []
        received := []
        sent := [] }
  enabled _ event :=
    match event with
    | .input datagram _ _ => Ordinary datagram
    | _ => True
  step := step netif

/-! ## Matching -/

section Matching

variable {netif : Netif} {datagram : Datagram} {pcb : UdpPcb}

theorem remoteEnd_iff (specified : isAny pcb.remoteIp = false) :
    remoteEnd datagram pcb = true ↔
      pcb.remotePort = datagram.srcPort ∧
        pcb.remoteIp = datagram.src := by
  simp [remoteEnd, specified]

/-- Unless it is a broadcast, a datagram matches its own address only. -/
theorem localEnd_iff
    (specified : isAny pcb.localIp = false)
    (unicast : isBroadcast datagram.dst = false) :
    localEnd netif datagram pcb = true ↔
      pcb.localPort = datagram.dstPort ∧
        pcb.localIp = datagram.dst := by
  unfold localEnd udpInputLocalMatch
  cases own : pcb.localIp with
  | v4 address =>
      cases dest : datagram.dst with
      | v4 other =>
          rw [own] at specified
          rw [dest] at unicast
          simp [specified, unicast]
      | v6 other => simp
  | v6 address =>
      cases dest : datagram.dst with
      | v4 other => simp
      | v6 other =>
          rw [own] at specified
          simp [specified]

/-- A datagram matches the pcb which was made for its flow. -/
theorem ends_of_flow (same : pcb.flow = datagram.flow) :
    localEnd netif datagram pcb = true ∧
      remoteEnd datagram pcb = true := by
  simp only [UdpPcb.flow, Datagram.flow, Flow.mk.injEq] at same
  rcases same with ⟨app, appPort, target, targetPort⟩
  refine ⟨?_, by simp [remoteEnd, app, appPort]⟩
  unfold localEnd udpInputLocalMatch
  rw [target, targetPort]
  cases dest : datagram.dst with
  | v4 address =>
      simp only [decide_true, Bool.true_and, Bool.or_true]
      split <;> simp [ip4Netcmp]
  | v6 address => simp

theorem localPort_of_localEnd
    (matches_ : localEnd netif datagram pcb = true) :
    pcb.localPort = datagram.dstPort := by
  simp only [localEnd, Bool.and_eq_true, decide_eq_true_eq] at matches_
  exact matches_.1

/-- The loop is a search as long as every pcb is connected. -/
theorem udpInputLoop_eq {pcbs passed : List UdpPcb}
    (connected : ∀ pcb ∈ pcbs, pcb.connected = true) :
    udpInputLoop netif datagram none passed pcbs =
      match
        search
          (fun pcb =>
            localEnd netif datagram pcb && remoteEnd datagram pcb)
          passed pcbs with
      | some (pcb, rearranged) => (some pcb, rearranged)
      | none => (none, passed.reverse ++ pcbs) := by
  induction pcbs generalizing passed with
  | nil => simp [udpInputLoop, search]
  | cons first rest induction =>
      have others : ∀ pcb ∈ rest, pcb.connected = true :=
        fun pcb member => connected pcb (List.mem_cons_of_mem _ member)
      have one := connected first List.mem_cons_self
      rw [udpInputLoop, search]
      by_cases own : localEnd netif datagram first = true
      · by_cases other : remoteEnd datagram first = true
        · simp [own, other]
        · simp [own, other, one, induction others]
      · simp [own, induction others]

end Matching

/-! ## What holds of every state -/

/-- A datagram which a forward may get. -/
structure Heard (flow : Flow) (datagram : Datagram) : Prop where
  app : datagram.src = flow.app
  appPort : datagram.srcPort = flow.appPort
  targetPort : datagram.dstPort = flow.targetPort
  target : isBroadcast datagram.dst = false → datagram.dst = flow.target

/-- A datagram which a forward may send. -/
structure Answered (flow : Flow) (datagram : Datagram) : Prop where
  app : datagram.dst = flow.app
  appPort : datagram.dstPort = flow.appPort
  targetPort : datagram.srcPort = flow.targetPort
  target : isMulticast flow.target = false → datagram.src = flow.target

theorem Heard.flow_eq {flow : Flow} {datagram : Datagram}
    (heard : Heard flow datagram)
    (unicast : isBroadcast datagram.dst = false) :
    datagram.flow = flow := by
  rcases flow with ⟨app, appPort, target, targetPort⟩
  simp only [Datagram.flow, Flow.mk.injEq]
  exact
    ⟨heard.app, heard.appPort, heard.target unicast, heard.targetPort⟩

theorem Answered.flow_eq {flow : Flow} {datagram : Datagram}
    (answered : Answered flow datagram)
    (single : isMulticast flow.target = false) :
    datagram.answers = flow := by
  rcases flow with ⟨app, appPort, target, targetPort⟩
  simp only [Datagram.answers, Flow.mk.injEq]
  exact
    ⟨answered.app, answered.appPort, answered.target single,
      answered.targetPort⟩

/-- A pcb of the stack, among the flows which were made. -/
structure Live (flows : List Flow) (pcb : UdpPcb) : Prop where
  flow : flows[pcb.id]? = some pcb.flow
  connected : pcb.connected = true
  recv : pcb.recv = true
  remote : isAny pcb.remoteIp = false
  own : isAny pcb.localIp = false
  port : pcb.localPort ≠ 0
  family : pcb.localIp.family = pcb.remoteIp.family

structure State.Sound (state : State) : Prop where
  count : state.flows.length = state.stack.made
  distinct : (state.stack.pcbs.map UdpPcb.flow).Nodup
  live : ∀ pcb ∈ state.stack.pcbs, Live state.flows pcb
  received :
    ∀ entry ∈ state.received,
      ∃ flow, state.flows[entry.1]? = some flow ∧ Heard flow entry.2
  sent :
    ∀ entry ∈ state.sent,
      ∃ flow, state.flows[entry.1]? = some flow ∧ Answered flow entry.2

section Sound

variable {netif : Netif} {state : State} {datagram : Datagram}
  {pcb : UdpPcb} {flows : List Flow}

theorem Live.append (live : Live flows pcb) (flow : Flow) :
    Live (flows ++ [flow]) pcb :=
  { live with
    flow := known_append live.flow flow }

/-- What a pcb hears is of its flow. -/
theorem Live.heard (live : Live flows pcb)
    (own : localEnd netif datagram pcb = true)
    (remote : remoteEnd datagram pcb = true) :
    Heard pcb.flow datagram := by
  have other := (remoteEnd_iff live.remote).mp remote
  refine ⟨other.2.symm, other.1.symm, (localPort_of_localEnd own).symm, ?_⟩
  intro unicast
  exact ((localEnd_iff live.own unicast).mp own).2.symm

/-- A pcb is known by its number. -/
theorem State.Sound.eq_of_id (sound : state.Sound) {other : UdpPcb}
    (member : pcb ∈ state.stack.pcbs) (present : other ∈ state.stack.pcbs)
    (same : other.id = pcb.id) : other = pcb := by
  have one := (sound.live pcb member).flow
  have two := (sound.live other present).flow
  rw [same, one] at two
  exact eq_of_key sound.distinct member present
    (Option.some.inj two).symm

theorem passOn_received {id : Nat} {intact : Bool}
    (passed : passOn pcb intact = .received id) : id = pcb.id := by
  unfold passOn at passed
  split at passed <;> cases passed
  rfl

/-- A datagram adds one entry to the record, of the forward which hears it. -/
theorem State.Sound.record (sound : state.Sound)
    {result : Outcome × Stack} {flows : List Flow}
    (known :
      (state.record datagram result).flows = flows)
    (kept :
      ∀ (id : Nat) (flow : Flow),
        state.flows[id]? = some flow → flows[id]? = some flow)
    (count : flows.length = result.2.made)
    (distinct : (result.2.pcbs.map UdpPcb.flow).Nodup)
    (live : ∀ pcb ∈ result.2.pcbs, Live flows pcb)
    (heard :
      ∀ id, result.1 = .received id →
        ∃ flow, flows[id]? = some flow ∧ Heard flow datagram) :
    (state.record datagram result).Sound := by
  constructor
  · rw [known]
    exact count
  · exact distinct
  · rw [known]
    exact live
  · intro entry member
    rw [known]
    simp only [State.record] at member
    split at member
    · next id passed =>
        rcases List.mem_append.mp member with older | newer
        · rcases sound.received entry older with ⟨flow, entered, was⟩
          exact ⟨flow, kept _ _ entered, was⟩
        · cases List.mem_singleton.mp newer
          exact heard id passed
    · rcases sound.received entry member with ⟨flow, entered, was⟩
      exact ⟨flow, kept _ _ entered, was⟩
  · intro entry member
    rw [known]
    rcases sound.sent entry member with ⟨flow, entered, was⟩
    exact ⟨flow, kept _ _ entered, was⟩

/-- What `udp_input` finds, or that it makes a pcb for a new flow. -/
theorem State.Sound.udpInput_cases (sound : state.Sound)
    (datagram : Datagram) (accepts intact : Bool) :
    (∃ pcb others,
      udpInput netif state.stack datagram accepts intact =
          (passOn pcb intact,
            { state.stack with pcbs := pcb :: others }) ∧
        pcb ∈ state.stack.pcbs ∧
        (pcb :: others).Perm state.stack.pcbs ∧
        localEnd netif datagram pcb = true ∧
        remoteEnd datagram pcb = true) ∨
    ((∀ pcb ∈ state.stack.pcbs, pcb.flow ≠ datagram.flow) ∧
      udpInput netif state.stack datagram accepts intact =
        if accepts then
          (passOn
              { newPcb state.stack.made datagram with recv := true } intact,
            { pcbs :=
                { newPcb state.stack.made datagram with recv := true } ::
                  state.stack.pcbs
              made := state.stack.made + 1 })
        else
          (.unreachable,
            { state.stack with made := state.stack.made + 1 })) := by
  have connected : ∀ pcb ∈ state.stack.pcbs, pcb.connected = true :=
    fun pcb member => (sound.live pcb member).connected
  unfold udpInput
  rw [udpInputLoop_eq connected]
  cases result : search
      (fun pcb => localEnd netif datagram pcb && remoteEnd datagram pcb)
      [] state.stack.pcbs with
  | some pair =>
      left
      rcases pair with ⟨pcb, rearranged⟩
      rcases front_of_search result with ⟨others, rfl⟩
      have both := test_of_search result
      simp only [Bool.and_eq_true] at both
      exact
        ⟨pcb, others, rfl, mem_of_search result,
          perm_of_search result, both⟩
  | none =>
      right
      refine ⟨?_, ?_⟩
      · intro pcb member same
        have fails := search_eq_none.mp result pcb member
        have ends :
            localEnd netif datagram pcb = true ∧
              remoteEnd datagram pcb = true :=
          ends_of_flow same
        rw [ends.1, ends.2] at fails
        cases fails
      · simp [udpRemove]

/-- A pcb which `udp_input` has made is live. -/
theorem live_newPcb (ordinary : Ordinary datagram) (flows : List Flow) :
    Live (flows ++ [datagram.flow])
      { newPcb flows.length datagram with recv := true } where
  flow := List.getElem?_concat_length
  connected := rfl
  recv := rfl
  remote := ordinary.1
  own := ordinary.2.1
  port := ordinary.2.2
  family := datagram.family.symm

theorem State.Sound.input (sound : state.Sound)
    (ordinary : Ordinary datagram) (accepts intact : Bool) :
    (state.record datagram
      (udpInput netif state.stack datagram accepts intact)).Sound := by
  rcases sound.udpInput_cases datagram accepts intact with
    ⟨pcb, others, result, member, same, own, remote⟩ | ⟨new, result⟩
  · rw [result]
    have live := sound.live pcb member
    refine sound.record (?_ : _ = state.flows) ?_ ?_ ?_ ?_ ?_
    · simp [State.record]
    · exact fun _ _ known => known
    · exact sound.count
    · exact (same.map UdpPcb.flow).nodup_iff.mpr sound.distinct
    · exact fun other present =>
        sound.live other (same.mem_iff.mp present)
    · intro id passed
      rw [passOn_received passed]
      exact ⟨pcb.flow, live.flow, live.heard own remote⟩
  · have count := sound.count
    have flows :
        ∀ outcome pcbs,
          (state.record datagram
              (outcome,
                { pcbs := pcbs, made := state.stack.made + 1 })).flows =
            state.flows ++ [datagram.flow] := by
      simp [State.record]
    have total :
        (state.flows ++ [datagram.flow]).length =
          state.stack.made + 1 := by
      simp [count]
    have older :
        ∀ pcb ∈ state.stack.pcbs,
          Live (state.flows ++ [datagram.flow]) pcb :=
      fun pcb member => (sound.live pcb member).append _
    have newer := live_newPcb ordinary state.flows
    rw [count] at newer
    rw [result]
    cases accepts with
    | false =>
        exact
          sound.record (flows _ _)
            (fun _ _ known => known_append known _) total sound.distinct
            older (fun _ passed => nomatch passed)
    | true =>
        apply sound.record (flows _ _)
          (fun _ _ known => known_append known _) total
        · apply List.nodup_cons.mpr
          refine ⟨?_, sound.distinct⟩
          intro taken
          rcases List.mem_map.mp taken with ⟨pcb, member, same⟩
          exact new pcb member same
        · intro pcb member
          rcases List.mem_cons.mp member with rfl | present
          · exact newer
          · exact older pcb present
        · intro id passed
          rw [passOn_received passed]
          exact
            ⟨datagram.flow, newer.flow, rfl, rfl, rfl, fun _ => rfl⟩

/-- What `udp_send` makes of a live pcb. -/
theorem Live.udpSend (live : Live flows pcb)
    {bound : Option Nat} {data : List UInt8} {later : UdpPcb}
    (sent : udpSend netif pcb bound data = some (later, datagram)) :
    later = pcb ∧ Answered pcb.flow datagram := by
  unfold Udp.udpSend at sent
  rw [if_neg live.port] at sent
  split at sent
  · cases sent
  · next src source =>
      split at sent
      · cases sent
        refine ⟨rfl, rfl, rfl, rfl, ?_⟩
        intro unicast
        have own : isMulticast pcb.localIp = false := unicast
        rw [sourceAddr, live.own, own] at source
        exact (Option.some.inj source).symm
      · cases sent

theorem State.Sound.step (sound : state.Sound) {event : Event}
    (permitted : (system netif).enabled state event) {later : State}
    (handled : step netif state event = .ok later) : later.Sound := by
  cases event with
  | input datagram accepts intact =>
      cases handled
      exact sound.input permitted accepts intact
  | destroy id =>
      cases handled
      have fewer :
          (udpRemove id state.stack.pcbs).Sublist state.stack.pcbs :=
        List.eraseP_sublist
      exact
        { sound with
          distinct := sound.distinct.sublist (fewer.map UdpPcb.flow)
          live := fun pcb member =>
            sound.live pcb (fewer.subset member) }
  | send id bound data =>
      simp only [Udp.step] at handled
      cases found :
          state.stack.pcbs.find? (fun pcb => decide (pcb.id = id)) with
      | none =>
          rw [found] at handled
          cases handled
          exact sound
      | some pcb =>
          have member := List.mem_of_find?_eq_some found
          have here : pcb.id = id := by
            simpa using List.find?_some found
          rw [found] at handled
          cases sent : udpSend netif pcb bound data with
          | none =>
              simp only [sent] at handled
              cases handled
              exact sound
          | some pair =>
              have live := sound.live pcb member
              have answer := live.udpSend sent
              have same :
                  state.stack.pcbs.map
                      (fun other =>
                        if other.id = id then pair.1 else other) =
                    state.stack.pcbs := by
                conv_rhs => rw [← List.map_id state.stack.pcbs]
                apply List.map_congr_left
                intro other present
                rw [id_eq]
                split
                · next equal =>
                    rw [answer.1]
                    exact
                      (sound.eq_of_id member present
                        (equal.trans here.symm)).symm
                · rfl
              simp only [sent, same] at handled
              cases handled
              refine { sound with sent := ?_ }
              intro entry listed
              rcases List.mem_append.mp listed with older | newer
              · exact sound.sent entry older
              · cases List.mem_singleton.mp newer
                exact ⟨pcb.flow, here ▸ live.flow, answer.2⟩

theorem sound_of_reachable
    (reachable : (system netif).Reachable state) : state.Sound := by
  apply reachable.invariant
  · rintro source rfl
    exact
      { count := rfl
        distinct := List.nodup_nil
        live := fun _ absent => nomatch absent
        received := fun _ absent => nomatch absent
        sent := fun _ absent => nomatch absent }
  · intro source event target sound permitted handled
    exact sound.step permitted handled

end Sound

/-! ## Results -/

def sampleNetif : Netif where
  ipAddr := Vector.replicate 4 100
  netmask := Vector.replicate 4 255
  sourceAddress := fun _ => none

def sampleQuery : Datagram where
  src := .v4 (Vector.replicate 4 10)
  srcPort := 40000
  dst := .v4 (Vector.replicate 4 8)
  dstPort := 53
  data := [1]
  family := rfl

def sampleReply : Datagram where
  src := .v4 (Vector.replicate 4 8)
  srcPort := 53
  dst := .v4 (Vector.replicate 4 10)
  dstPort := 40000
  data := [2]
  family := rfl

/-- A query was received, and answered. -/
def sampleState : State where
  stack :=
    { pcbs := [{ newPcb 0 sampleQuery with recv := true }]
      made := 1 }
  flows := [sampleQuery.flow]
  received := [(0, sampleQuery)]
  sent := [(0, sampleReply)]

theorem sampleQuery_ordinary : Ordinary sampleQuery := by
  unfold Ordinary
  decide

theorem sampleState_reachable :
    (system sampleNetif).Reachable sampleState := by
  have first :
      (system sampleNetif).Reachable
        { sampleState with sent := [] } :=
    .next (.start rfl)
      (show (system sampleNetif).enabled _ (.input sampleQuery true true)
        from sampleQuery_ordinary)
      rfl
  exact
    .next first
      (show (system sampleNetif).enabled _ (.send 0 none [2])
        from trivial)
      rfl

/--
The forwards of the stack have distinct flows; whatever a forward has ever got
is of its flow, unless it was a broadcast to the same port; and whatever it
has sent goes back to the application's end, from the other end of the flow
unless that is a group.
-/
theorem flows_stay_apart
    (netif : Netif) {state : State}
    (reachable : (system netif).Reachable state) :
    (state.stack.pcbs.map UdpPcb.flow).Nodup ∧
      (∀ id datagram, (id, datagram) ∈ state.received →
        ∃ flow, state.flows[id]? = some flow ∧
          datagram.src = flow.app ∧ datagram.srcPort = flow.appPort ∧
          datagram.dstPort = flow.targetPort ∧
          (isBroadcast datagram.dst = false →
            datagram.flow = flow)) ∧
      (∀ id datagram, (id, datagram) ∈ state.sent →
        ∃ flow, state.flows[id]? = some flow ∧
          datagram.dst = flow.app ∧ datagram.dstPort = flow.appPort ∧
          datagram.srcPort = flow.targetPort ∧
          (isMulticast flow.target = false →
            datagram.answers = flow)) := by
  have sound := sound_of_reachable reachable
  refine ⟨sound.distinct, ?_, ?_⟩
  · intro id datagram member
    rcases sound.received _ member with ⟨flow, known, heard⟩
    refine
      ⟨flow, known, heard.app, heard.appPort, heard.targetPort, ?_⟩
    intro unicast
    exact heard.flow_eq unicast
  · intro id datagram member
    rcases sound.sent _ member with ⟨flow, known, answered⟩
    refine
      ⟨flow, known, answered.app, answered.appPort,
        answered.targetPort, ?_⟩
    intro single
    exact answered.flow_eq single

theorem flows_stay_apart_sample :
    (sampleState.stack.pcbs.map UdpPcb.flow).Nodup ∧
      (∀ id datagram, (id, datagram) ∈ sampleState.received →
        ∃ flow, sampleState.flows[id]? = some flow ∧
          datagram.src = flow.app ∧ datagram.srcPort = flow.appPort ∧
          datagram.dstPort = flow.targetPort ∧
          (isBroadcast datagram.dst = false →
            datagram.flow = flow)) ∧
      (∀ id datagram, (id, datagram) ∈ sampleState.sent →
        ∃ flow, sampleState.flows[id]? = some flow ∧
          datagram.dst = flow.app ∧ datagram.dstPort = flow.appPort ∧
          datagram.srcPort = flow.targetPort ∧
          (isMulticast flow.target = false →
            datagram.answers = flow)) :=
  flows_stay_apart sampleNetif sampleState_reachable

/-- A broadcast to the port of a flow goes to the server of that flow. -/
example :
    (udpInput sampleNetif sampleState.stack
      { sampleQuery with dst := .v4 broadcastAddr } true true).1 =
      .received 0 := rfl

/--
A datagram which is no broadcast finds the pcb of its flow wherever it stands
in the list, and moves it to the front; where there is none, a pcb is made for
the flow, unless its forward cannot be created.
-/
theorem datagram_finds_its_flow
    (netif : Netif) {state : State} {datagram : Datagram}
    (reachable : (system netif).Reachable state)
    (unicast : isBroadcast datagram.dst = false)
    (accepts intact : Bool) :
    (∀ pcb ∈ state.stack.pcbs, pcb.flow = datagram.flow →
      ∃ others,
        udpInput netif state.stack datagram accepts intact =
            (if intact then .received pcb.id else .dropped,
              { state.stack with pcbs := pcb :: others }) ∧
          (pcb :: others).Perm state.stack.pcbs) ∧
    ((∀ pcb ∈ state.stack.pcbs, pcb.flow ≠ datagram.flow) →
      ∃ pcb,
        pcb.flow = datagram.flow ∧ pcb.id = state.stack.made ∧
          udpInput netif state.stack datagram accepts intact =
            if accepts then
              (if intact then .received pcb.id else .dropped,
                { pcbs := pcb :: state.stack.pcbs
                  made := state.stack.made + 1 })
            else
              (.unreachable,
                { state.stack with made := state.stack.made + 1 })) := by
  have sound := sound_of_reachable reachable
  have passed :
      ∀ pcb : UdpPcb, pcb.recv = true →
        passOn pcb intact =
          if intact then .received pcb.id else .dropped := by
    intro pcb recv
    simp [passOn, recv]
  have flow_eq :
      ∀ pcb ∈ state.stack.pcbs,
        localEnd netif datagram pcb = true →
        remoteEnd datagram pcb = true → pcb.flow = datagram.flow := by
    intro pcb member own remote
    have live := sound.live pcb member
    have here := (localEnd_iff live.own unicast).mp own
    have there := (remoteEnd_iff live.remote).mp remote
    simp only [UdpPcb.flow, Datagram.flow, here, there]
  rcases sound.udpInput_cases datagram accepts intact with
    ⟨found, others, result, member, same, own, remote⟩ | ⟨new, result⟩
  · have flow := flow_eq found member own remote
    constructor
    · intro pcb present equal
      have one := eq_of_key sound.distinct member present
        (equal.trans flow.symm)
      subst one
      exact
        ⟨others, by rw [result, passed _ (sound.live _ member).recv],
          same⟩
    · intro strangers
      exact absurd flow (strangers found member)
  · constructor
    · intro pcb present equal
      exact absurd equal (new pcb present)
    · intro _
      exact ⟨_, rfl, rfl, by rw [result, passed _ rfl]⟩

theorem datagram_finds_its_flow_sample :
    (∀ pcb ∈ sampleState.stack.pcbs, pcb.flow = sampleQuery.flow →
      ∃ others,
        udpInput sampleNetif sampleState.stack sampleQuery true true =
            (if true then .received pcb.id else .dropped,
              { sampleState.stack with pcbs := pcb :: others }) ∧
          (pcb :: others).Perm sampleState.stack.pcbs) ∧
    ((∀ pcb ∈ sampleState.stack.pcbs, pcb.flow ≠ sampleQuery.flow) →
      ∃ pcb,
        pcb.flow = sampleQuery.flow ∧ pcb.id = sampleState.stack.made ∧
          udpInput sampleNetif sampleState.stack sampleQuery true true =
            if true then
              (if true then .received pcb.id else .dropped,
                { pcbs := pcb :: sampleState.stack.pcbs
                  made := sampleState.stack.made + 1 })
            else
              (.unreachable,
                { sampleState.stack with
                  made := sampleState.stack.made + 1 })) :=
  datagram_finds_its_flow sampleNetif sampleState_reachable
    (by decide) true true

end Nsproxy.Lwip.Udp
