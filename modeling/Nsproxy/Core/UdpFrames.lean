import Mathlib.Tactic.Common
import Nsproxy.Core.UdpFlows

/-!
# What the UDP functions leave alone

Most functions about UDP flows only make connections, learn rules from DNS
responses, and change or drop the forward they were called for.  `Works` says
so; every property of runs is proved from it, and from the few functions
which move the association.

A connection is recorded with the configuration under which it was made, and
a parameter says which connections are allowed under which configuration.
-/

namespace Nsproxy.Core.UdpFrames

open Nsproxy.Conf
open Nsproxy.Lwip.Opts
open Nsproxy.Lwip.Buffers
open Nsproxy.Skutils
open Nsproxy.Socks
open Nsproxy.Core.UdpFlows

/-! ## Calls on behalf of a flow -/

/--
Nothing happened but connections of an allowed kind, all under the present
configuration.
-/
def Connects (allowed : Purpose → Via → Prop)
    (before after : CoreCtx) : Prop :=
  ∃ answers entries,
    after =
        { before with
          answers := answers
          trace := before.trace ++ entries } ∧
      ∀ entry ∈ entries, ∃ purpose via,
        allowed purpose via ∧ entry = .connect purpose via before.conf

section Connections

variable {allowed : Purpose → Via → Prop}

theorem Connects.refl (core : CoreCtx) : Connects allowed core core := by
  refine ⟨core.answers, [], ?_, ?_⟩
  · rw [List.append_nil]
  · intro entry member
    cases member

theorem Connects.trans
    {first second third : CoreCtx}
    (before : Connects allowed first second)
    (after : Connects allowed second third) :
    Connects allowed first third := by
  rcases before with ⟨_, front, rfl, early⟩
  rcases after with ⟨answers, back, rfl, late⟩
  refine ⟨answers, front ++ back, ?_, ?_⟩
  · rw [List.append_assoc]
  · intro entry member
    rcases List.mem_append.mp member with inside | inside
    · exact early entry inside
    · exact late entry inside

theorem Connects.conf
    {before after : CoreCtx} (connects : Connects allowed before after) :
    after.conf = before.conf := by
  rcases connects with ⟨_, _, rfl, _⟩
  rfl

theorem connects_answers (core : CoreCtx) (answers : KernelAnswers) :
    Connects allowed core { core with answers := answers } := by
  refine ⟨answers, [], ?_, ?_⟩
  · rw [List.append_nil]
  · intro entry member
    cases member

theorem connects_callConnect
    {purpose : Purpose} {via : Via} (fine : allowed purpose via)
    (core : CoreCtx) :
    Connects allowed core (callConnect purpose via core).2 := by
  refine ⟨_, [.connect purpose via core.conf], rfl, ?_⟩
  intro entry member
  exact ⟨purpose, via, fine, List.mem_singleton.mp member⟩

theorem connects_directUdpCreate
    {fwd : UdpForward} {addr : Text} {port : UInt16}
    (fine : allowed fwd.purpose (.direct addr port)) (core : CoreCtx) :
    Connects allowed core (directUdpCreate fwd addr port core).2 := by
  have called := connects_callConnect fine core
  simp only [directUdpCreate]
  split
  · exact Connects.refl core
  · split
    · next next same =>
        rw [same] at called
        exact called
    · next next same =>
        rw [same] at called
        exact called

theorem connects_relayCreate
    {fwd : UdpForward} (assoc : Assoc) {addr : Text} {port : UInt16}
    (fine : allowed fwd.purpose (.relay addr port)) (core : CoreCtx) :
    Connects allowed core (relayCreate fwd assoc addr port core).2 := by
  simp only [relayCreate]
  split
  · exact Connects.refl core
  · exact connects_callConnect fine core

theorem connects_tcpdnsSend
    (data : List UInt8) {core : CoreCtx}
    (fine : allowed .query (queryVia core.conf)) :
    Connects allowed core (tcpdnsSend data core).2 := by
  simp only [tcpdnsSend]
  split
  · exact Connects.refl core
  · split
    · exact Connects.refl core
    · exact connects_callConnect fine core

theorem connects_udpProxySend
    (proxy : UdpProxy) (data : List UInt8) {core : CoreCtx}
    (fine : allowed .query (queryVia core.conf)) :
    Connects allowed core (udpProxySend proxy data core).2 := by
  cases proxy with
  | tcpdns =>
      exact connects_tcpdnsSend data fine
  | direct addr port =>
      simp only [udpProxySend]
      split <;> exact connects_answers core _
  | socks assoc self =>
      simp only [udpProxySend]
      split <;> exact connects_answers core _

theorem connects_sendAll
    (proxy : UdpProxy) (chains : List PbufChain) {core : CoreCtx}
    (fine : allowed .query (queryVia core.conf)) :
    Connects allowed core (sendAll proxy chains core).2 := by
  induction chains generalizing core with
  | nil =>
      exact Connects.refl core
  | cons chain rest induction =>
      have sent := connects_udpProxySend proxy chain.bytes fine
      simp only [sendAll]
      split
      · next next same =>
          rw [same] at sent
          exact sent.trans (induction (sent.conf ▸ fine))
      · next next same =>
          rw [same] at sent
          exact sent

theorem connects_udpProxyOutput
    (proxy : UdpProxy) (fwd : UdpForward) {core : CoreCtx}
    (fine : allowed .query (queryVia core.conf)) :
    Connects allowed core (udpProxyOutput proxy fwd core).2 := by
  have sent := connects_sendAll proxy fwd.rcvq fine
  simp only [udpProxyOutput]
  split
  · next next same =>
      rw [same] at sent
      exact sent
  · next next same =>
      rw [same] at sent
      exact sent

end Connections

/-! ## What the events do to the forwards -/

/-- The same flow, with the same proxy object. -/
structure SameFlow (before after : UdpForward) : Prop where
  proxy : after.proxy = before.proxy
  localIp : after.localIp = before.localIp
  localPort : after.localPort = before.localPort

theorem SameFlow.refl (fwd : UdpForward) : SameFlow fwd fwd :=
  ⟨rfl, rfl, rfl⟩

theorem SameFlow.trans
    {first second third : UdpForward}
    (before : SameFlow first second) (after : SameFlow second third) :
    SameFlow first third :=
  ⟨after.proxy.trans before.proxy, after.localIp.trans before.localIp,
    after.localPort.trans before.localPort⟩

theorem sameFlow_udpProxyOutput
    {proxy : UdpProxy} {fwd left : UdpForward} {core : CoreCtx}
    (kept : left ∈ (udpProxyOutput proxy fwd core).1) :
    SameFlow fwd left := by
  simp only [udpProxyOutput] at kept
  split at kept
  · cases kept
    exact ⟨rfl, rfl, rfl⟩
  · cases kept

/-- Rules are learnt from DNS responses and connections are made. -/
inductive Works (allowed : Nspconf → Purpose → Via → Prop) :
    CoreCtx → CoreCtx → Prop where
  | refl (core : CoreCtx) :
      Works allowed core core
  | learns
      (blocks : List CidrBlock)
      (rest : Works allowed (dnsResponseAddDirectCidrs blocks core) last) :
      Works allowed core last
  | connects
      (step : Connects (allowed core.conf) core mid)
      (rest : Works allowed mid last) :
      Works allowed core last

section Forwards

variable {allowed : Nspconf → Purpose → Via → Prop}

theorem Works.trans
    {first second third : CoreCtx}
    (before : Works allowed first second)
    (after : Works allowed second third) :
    Works allowed first third := by
  induction before with
  | refl core =>
      exact after
  | learns blocks rest induction =>
      exact .learns blocks (induction after)
  | connects step rest induction =>
      exact .connects step (induction after)

theorem works_of_connects
    {before after : CoreCtx}
    (step : Connects (allowed before.conf) before after) :
    Works allowed before after :=
  .connects step (.refl after)

/-- What a function which runs on one forward does. -/
structure Runs (allowed : Nspconf → Purpose → Via → Prop)
    (fwd : UdpForward) (core : CoreCtx)
    (result : Option UdpForward × CoreCtx) : Prop where
  works : Works allowed core result.2
  flow : ∀ left ∈ result.1, SameFlow fwd left

theorem runs_some
    {fwd left : UdpForward} {core next : CoreCtx}
    (works : Works allowed core next) (same : SameFlow fwd left) :
    Runs allowed fwd core (some left, next) := by
  refine ⟨works, ?_⟩
  rintro kept ⟨⟩
  exact same

theorem runs_none
    {fwd : UdpForward} {core next : CoreCtx}
    (works : Works allowed core next) :
    Runs allowed fwd core (none, next) := by
  refine ⟨works, ?_⟩
  intro kept member
  cases member

theorem Runs.andThen
    {fwd : UdpForward} {core : CoreCtx}
    {result : Option UdpForward × CoreCtx}
    (before : Runs allowed fwd core result)
    {next : UdpForward → CoreCtx → Option UdpForward × CoreCtx}
    (after : ∀ fwd core, Runs allowed fwd core (next fwd core)) :
    Runs allowed fwd core (andThen result next) := by
  rcases result with ⟨left, mid⟩
  cases left with
  | none =>
      exact before
  | some middle =>
      have same := before.flow middle rfl
      have later := after middle mid
      refine ⟨before.works.trans later.works, ?_⟩
      intro kept member
      exact same.trans (later.flow kept member)

theorem runs_onEvents
    {run : UdpForward → CoreCtx → Option UdpForward × CoreCtx}
    (runs : ∀ fwd core, Runs allowed fwd core (run fwd core))
    (events bits : EventMask) (fwd : UdpForward) (core : CoreCtx) :
    Runs allowed fwd core (onEvents events bits run fwd core) := by
  simp only [onEvents]
  split
  · exact runs fwd core
  · exact runs_some (.refl core) (SameFlow.refl fwd)

/-- The loop of `udp_proxy_input` only learns rules. -/
theorem works_udpProxyInputLoop
    (fwd : UdpForward) (incoming : List Incoming) (core : CoreCtx) :
    Works allowed core (udpProxyInputLoop fwd incoming core).2 := by
  induction incoming generalizing core with
  | nil =>
      exact .refl core
  | cons first rest induction =>
      simp only [udpProxyInputLoop]
      split
      · exact .refl core
      · by_cases dns : fwd.localPort = 53
        · simp only [if_pos dns]
          split
          · exact .learns first.blocks (.refl _)
          · exact .learns first.blocks (induction _)
        · simp only [if_neg dns]
          split
          · exact .refl core
          · exact induction core

theorem runs_udpProxyInput
    (incoming : List Incoming) (fwd : UdpForward) (core : CoreCtx) :
    Runs allowed fwd core (udpProxyInput incoming fwd core) := by
  have learnt : Works allowed core _ :=
    works_udpProxyInputLoop fwd incoming core
  simp only [udpProxyInput]
  split
  · next next looped =>
      rw [looped] at learnt
      exact runs_some learnt ⟨rfl, rfl, rfl⟩
  · next next looped =>
      rw [looped] at learnt
      exact runs_none learnt

section Queries

variable (queries : ∀ conf, allowed conf .query (queryVia conf))

include queries

theorem runs_udpProxyOutput
    (proxy : UdpProxy) (fwd : UdpForward) (core : CoreCtx) :
    Runs allowed fwd core (udpProxyOutput proxy fwd core) where
  works :=
    works_of_connects
      (connects_udpProxyOutput proxy fwd (queries core.conf))
  flow := fun _ kept => sameFlow_udpProxyOutput kept

theorem runs_udpLwipReceived
    (chain : PbufChain) (fwd : UdpForward) (core : CoreCtx) :
    Runs allowed fwd core (udpLwipReceived chain fwd core) := by
  simp only [udpLwipReceived]
  split
  · exact runs_none (.refl core)
  · split
    · exact runs_some (.refl core) ⟨rfl, rfl, rfl⟩
    · next proxy present =>
        have sent :=
          runs_udpProxyOutput queries proxy (enqueueDatagram fwd chain)
            core
        refine ⟨sent.works, ?_⟩
        intro left kept
        have same := sent.flow left kept
        exact ⟨same.proxy, same.localIp, same.localPort⟩

theorem runs_forwardIoEvent
    (events : EventMask) (incoming : List Incoming) (fwd : UdpForward)
    (core : CoreCtx) :
    Runs allowed fwd core (forwardIoEvent events incoming fwd core) := by
  simp only [forwardIoEvent]
  split
  · exact runs_some (.refl core) (SameFlow.refl fwd)
  · next proxy present =>
      have read : Runs allowed fwd core _ :=
        runs_onEvents (runs_udpProxyInput incoming) events epollin fwd
          core
      have written := read.andThen
        (runs_onEvents (runs_udpProxyOutput queries proxy) events
          epollout)
      exact written.andThen
        (runs_onEvents (fun _ core => runs_none (.refl core)) events
          epollerr)

end Queries

end Forwards

/-! ## What stays as it is -/

/-- Only the table of CIDR blocks differs. -/
def SameSettings (before after : Nspconf) : Prop :=
  ∃ cidrs capacity,
    after =
      { before with
        directCidrs := cidrs
        directCidrCapacity := capacity }

theorem SameSettings.refl (conf : Nspconf) : SameSettings conf conf :=
  ⟨_, _, rfl⟩

theorem SameSettings.trans
    {first second third : Nspconf}
    (before : SameSettings first second)
    (after : SameSettings second third) :
    SameSettings first third := by
  rcases before with ⟨_, _, rfl⟩
  rcases after with ⟨_, _, rfl⟩
  exact ⟨_, _, rfl⟩

theorem sameSettings_add (conf : Nspconf) (block : CidrBlock) :
    SameSettings conf (nspconfAddDirectCidrRaw conf block) := by
  simp only [nspconfAddDirectCidrRaw]
  split
  · exact SameSettings.refl conf
  · exact ⟨_, _, rfl⟩

theorem sameSettings_foldl (blocks : List CidrBlock) (conf : Nspconf) :
    SameSettings conf (blocks.foldl nspconfAddDirectCidrRaw conf) := by
  induction blocks generalizing conf with
  | nil =>
      exact SameSettings.refl conf
  | cons block rest induction =>
      exact (sameSettings_add conf block).trans (induction _)

/-- The list of forwards and the association are as before. -/
structure Undisturbed (before after : CoreCtx) : Prop where
  udplst : after.udplst = before.udplst
  udpassoc : after.udpassoc = before.udpassoc
  assocretries : after.assocretries = before.assocretries
  assoccd : after.assoccd = before.assoccd
  assocready : after.assocready = before.assocready
  settings : SameSettings before.conf after.conf

/-- The history grew by connections which were allowed. -/
def Connected (allowed : Nspconf → Purpose → Via → Prop)
    (before after : CoreCtx) : Prop :=
  ∃ entries,
    after.trace = before.trace ++ entries ∧
      ∀ entry ∈ entries, ∃ conf purpose via,
        SameSettings before.conf conf ∧ allowed conf purpose via ∧
          entry = .connect purpose via conf

section Works

variable {allowed : Nspconf → Purpose → Via → Prop}

theorem Connects.undisturbed
    {kinds : Purpose → Via → Prop} {before after : CoreCtx}
    (connects : Connects kinds before after) :
    Undisturbed before after := by
  rcases connects with ⟨_, _, rfl, _⟩
  exact ⟨rfl, rfl, rfl, rfl, rfl, SameSettings.refl _⟩

theorem Undisturbed.trans
    {first second third : CoreCtx}
    (before : Undisturbed first second)
    (after : Undisturbed second third) :
    Undisturbed first third where
  udplst := after.udplst.trans before.udplst
  udpassoc := after.udpassoc.trans before.udpassoc
  assocretries := after.assocretries.trans before.assocretries
  assoccd := after.assoccd.trans before.assoccd
  assocready := after.assocready.trans before.assocready
  settings := before.settings.trans after.settings

theorem Works.undisturbed
    {before after : CoreCtx} (works : Works allowed before after) :
    Undisturbed before after := by
  induction works with
  | refl core =>
      exact ⟨rfl, rfl, rfl, rfl, rfl, SameSettings.refl _⟩
  | @learns core last blocks rest induction =>
      have learnt :
          Undisturbed core (dnsResponseAddDirectCidrs blocks core) :=
        ⟨rfl, rfl, rfl, rfl, rfl, sameSettings_foldl blocks core.conf⟩
      exact learnt.trans induction
  | connects step rest induction =>
      exact step.undisturbed.trans induction

theorem connected_refl (core : CoreCtx) : Connected allowed core core := by
  refine ⟨[], (List.append_nil _).symm, ?_⟩
  intro entry member
  cases member

theorem Connected.trans
    {first second third : CoreCtx}
    (settings : SameSettings first.conf second.conf)
    (before : Connected allowed first second)
    (after : Connected allowed second third) :
    Connected allowed first third := by
  rcases before with ⟨front, early, frontFine⟩
  rcases after with ⟨back, late, backFine⟩
  refine ⟨front ++ back, ?_, ?_⟩
  · rw [late, early, List.append_assoc]
  · intro entry member
    rcases List.mem_append.mp member with inside | inside
    · exact frontFine entry inside
    · rcases backFine entry inside with
        ⟨conf, purpose, via, same, fine, made⟩
      exact ⟨conf, purpose, via, settings.trans same, fine, made⟩

theorem Connects.connected
    {before after : CoreCtx}
    (connects : Connects (allowed before.conf) before after) :
    Connected allowed before after := by
  rcases connects with ⟨_, entries, rfl, fine⟩
  refine ⟨entries, rfl, ?_⟩
  intro entry member
  rcases fine entry member with ⟨purpose, via, fine, same⟩
  exact
    ⟨before.conf, purpose, via, SameSettings.refl _, fine, same⟩

theorem Works.connected
    {before after : CoreCtx} (works : Works allowed before after) :
    Connected allowed before after := by
  induction works with
  | refl core =>
      exact connected_refl core
  | @learns core last blocks rest induction =>
      have learnt :
          Connected allowed core
            (dnsResponseAddDirectCidrs blocks core) :=
        connected_refl core
      exact learnt.trans (sameSettings_foldl blocks core.conf) induction
  | connects step rest induction =>
      exact step.connected.trans step.undisturbed.settings induction

/-- An event on one forward works, and keeps every other forward. -/
theorem onForward_works
    {run : UdpForward → CoreCtx → Option UdpForward × CoreCtx}
    (runs : ∀ fwd core, Runs allowed fwd core (run fwd core))
    (number : Nat) (core : CoreCtx) :
    ∃ mid kept,
      Works allowed core mid ∧
        onForward number run core = { mid with udplst := kept } ∧
        ∀ fwd ∈ kept, ∃ old ∈ core.udplst, SameFlow old fwd := by
  simp only [onForward]
  split
  · refine ⟨core, core.udplst, .refl core, rfl, ?_⟩
    intro fwd member
    exact ⟨fwd, member, SameFlow.refl fwd⟩
  · next found present =>
      have ran := runs found core
      refine ⟨_, _, ran.works, rfl, ?_⟩
      intro fwd member
      rw [ran.works.undisturbed.udplst] at member
      simp only [replaceForward, List.mem_flatMap] at member
      rcases member with ⟨old, inside, kept⟩
      split at kept
      · have left : fwd ∈ (run found core).1 := by
          simpa using kept
        exact ⟨found, List.mem_of_find?_eq_some present,
          ran.flow fwd left⟩
      · rw [List.mem_singleton.mp kept]
        exact ⟨old, inside, SameFlow.refl old⟩

end Works

/-! ## Proxy objects -/

/-- Where the proxy object of a forward comes from. -/
inductive Held (core : CoreCtx) (fwd : UdpForward) : UdpProxy → Prop where
  | direct
      (made :
        .connect fwd.purpose (.direct addr port) conf ∈ core.trace) :
      Held core fwd (.direct addr port)
  | relay
      (made :
        .connect fwd.purpose (.relay self.addr self.port) conf ∈
          core.trace) :
      Held core fwd (.socks number self)
  | nameserver
      (gateway : isGateway core.conf fwd.localIp = true)
      (port : fwd.localPort = 53) :
      Held core fwd .tcpdns

theorem SameSettings.isGateway
    {before after : Nspconf} (settings : SameSettings before after)
    (addr : IpAddr) :
    UdpFlows.isGateway after addr = UdpFlows.isGateway before addr := by
  rcases settings with ⟨_, _, rfl⟩
  rfl

theorem Held.later
    {core next : CoreCtx} {fwd left : UdpForward} {proxy : UdpProxy}
    (held : Held core fwd proxy)
    (settings : SameSettings core.conf next.conf)
    (grows : core.trace <+: next.trace)
    (addr : left.localIp = fwd.localIp)
    (port : left.localPort = fwd.localPort) :
    Held next left proxy := by
  have purpose : left.purpose = fwd.purpose := by
    rw [UdpForward.purpose, addr, port]
    rfl
  cases held with
  | direct made =>
      exact .direct (purpose ▸ grows.subset made)
  | relay made =>
      exact .relay (purpose ▸ grows.subset made)
  | nameserver gateway dns =>
      refine .nameserver ?_ (port.trans dns)
      rw [settings.isGateway, addr]
      exact gateway

theorem Connects.grows
    {allowed : Purpose → Via → Prop} {before after : CoreCtx}
    (connects : Connects allowed before after) :
    before.trace <+: after.trace := by
  rcases connects with ⟨_, entries, rfl, _⟩
  exact List.prefix_append _ entries

theorem held_directUdpCreate
    {fwd : UdpForward} {addr : Text} {port : UInt16} {core : CoreCtx}
    {proxy : UdpProxy}
    (made : proxy ∈ (directUdpCreate fwd addr port core).1) :
    Held (directUdpCreate fwd addr port core).2 fwd proxy := by
  by_cases long : servnameMaxlen < addr.length
  · simp only [directUdpCreate, if_pos long] at made
    cases made
  · cases connected : core.answers.connects.headD true with
    | false =>
        simp only [directUdpCreate, if_neg long, callConnect,
          connected] at made
        cases made
    | true =>
        simp only [directUdpCreate, if_neg long, callConnect,
          connected] at made ⊢
        cases made
        exact .direct (List.mem_append_right _ List.mem_cons_self)

theorem relayCreate_addr
    {assoc self : ProxySocks} {addr : Text} {port : UInt16}
    {connected accepted : Bool}
    (made :
      self ∈ socksUdpCreate assoc addr port connected accepted) :
    self.addr = addr ∧ self.port = port := by
  simp only [socksUdpCreate] at made
  split at made
  · cases made
  · split at made
    · cases made
    · split at made
      · cases made
        exact ⟨rfl, rfl⟩
      · cases made

theorem held_relayCreate
    {fwd : UdpForward} {assoc : Assoc} {addr : Text} {port : UInt16}
    {core : CoreCtx} {proxy : UdpProxy}
    (made : proxy ∈ (relayCreate fwd assoc addr port core).1) :
    Held (relayCreate fwd assoc addr port core).2 fwd proxy := by
  simp only [relayCreate] at made ⊢
  split at made
  · cases made
  · next fine =>
      rw [if_neg fine]
      rcases Option.map_eq_some_iff.mp made with ⟨self, created, rfl⟩
      rcases relayCreate_addr created with ⟨rfl, rfl⟩
      exact .relay (List.mem_append_right _ List.mem_cons_self)

/-! ## Pending flows -/

section Pending

variable {allowed : Purpose → Via → Prop}

/-- Whatever `udp_assoc_io_event` does with a pending flow is allowed. -/
structure Admits (inet : Inet) (conf : Nspconf)
    (allowed : Purpose → Via → Prop) (fwd : UdpForward) : Prop where
  bypass :
    isDirectCidrTarget conf fwd.localIp = true →
      allowed fwd.purpose
        (.direct (inet.ntoa fwd.localIp) fwd.localPort)
  relay :
    isDirectCidrTarget conf fwd.localIp = false →
      allowed fwd.purpose
        (.relay (inet.ntoa fwd.localIp) fwd.localPort)

theorem pendingProxy_spec
    {inet : Inet} {fwd : UdpForward} {core next : CoreCtx}
    (admits : Admits inet core.conf allowed fwd)
    {proxy : Option UdpProxy}
    (made : pendingProxy inet fwd core = .ok (proxy, next)) :
    Connects allowed core next ∧ ∀ held ∈ proxy, Held next fwd held := by
  simp only [pendingProxy] at made
  split at made
  · next listed =>
      have connects :=
        connects_directUdpCreate (admits.bypass listed) core
      have holds :
          ∀ held ∈
              (directUdpCreate fwd (inet.ntoa fwd.localIp)
                fwd.localPort core).1,
            Held _ fwd held :=
        fun _ member => held_directUdpCreate member
      rw [Except.ok.inj made] at connects holds
      exact ⟨connects, holds⟩
  · next unlisted =>
      split at made
      · cases made
      · next assoc present =>
          have outside :
              isDirectCidrTarget core.conf fwd.localIp = false := by
            simpa using unlisted
          have connects :=
            connects_relayCreate assoc (admits.relay outside) core
          have holds :
              ∀ held ∈
                  (relayCreate fwd assoc (inet.ntoa fwd.localIp)
                    fwd.localPort core).1,
                Held _ fwd held :=
            fun _ member => held_relayCreate member
          rw [Except.ok.inj made] at connects holds
          exact ⟨connects, holds⟩

/-- The forward has a proxy object. -/
def Attached (core : CoreCtx) (fwd : UdpForward) : Prop :=
  ∃ proxy, fwd.proxy = some proxy ∧ Held core fwd proxy

theorem Attached.connects
    {core next : CoreCtx} {fwd : UdpForward}
    (attached : Attached core fwd)
    (connects : Connects allowed core next) :
    Attached next fwd := by
  rcases attached with ⟨proxy, present, held⟩
  exact
    ⟨proxy, present,
      held.later connects.undisturbed.settings connects.grows rfl rfl⟩

theorem settlePending_spec
    {inet : Inet} {fwd : UdpForward} {core next : CoreCtx}
    (admits : Admits inet core.conf allowed fwd)
    (queries : allowed .query (queryVia core.conf))
    {left : Option UdpForward}
    (settled : settlePending inet fwd core = .ok (left, next)) :
    Connects allowed core next ∧ ∀ kept ∈ left, Attached next kept := by
  simp only [settlePending] at settled
  split at settled
  · cases settled
  · next mid made =>
      cases settled
      refine ⟨(pendingProxy_spec admits made).1, ?_⟩
      intro kept member
      cases member
  · next proxy mid made =>
      rcases pendingProxy_spec admits made with ⟨connects, holds⟩
      have held := holds proxy rfl
      split at settled
      · have sent :=
          connects_udpProxyOutput proxy { fwd with proxy := some proxy }
            (connects.conf ▸ queries)
        have flow :
            ∀ kept ∈
                (udpProxyOutput proxy { fwd with proxy := some proxy }
                  mid).1,
              SameFlow { fwd with proxy := some proxy } kept :=
          fun _ member => sameFlow_udpProxyOutput member
        rw [Except.ok.inj settled] at sent flow
        refine ⟨connects.trans sent, ?_⟩
        intro kept member
        have same := flow kept member
        exact
          ⟨proxy, same.proxy,
            held.later sent.undisturbed.settings sent.grows same.localIp
              same.localPort⟩
      · cases settled
        refine ⟨connects, ?_⟩
        rintro kept ⟨⟩
        exact
          ⟨proxy, rfl,
            held.later (SameSettings.refl _) (List.prefix_refl _) rfl
              rfl⟩

/-- When the association succeeds no flow stays pending. -/
theorem settle_spec
    {inet : Inet} {fwds kept : List UdpForward} {core last : CoreCtx}
    (admits :
      ∀ fwd ∈ fwds, fwd.proxy = none →
        Admits inet core.conf allowed fwd)
    (queries : allowed .query (queryVia core.conf))
    (settled : settle inet fwds core = .ok (kept, last)) :
    Connects allowed core last ∧
      ∀ fwd ∈ kept,
        (fwd ∈ fwds ∧ fwd.proxy.isSome = true) ∨ Attached last fwd := by
  induction fwds generalizing kept core with
  | nil =>
      cases settled
      refine ⟨Connects.refl _, ?_⟩
      intro fwd member
      cases member
  | cons fwd rest induction =>
      simp only [settle] at settled
      split at settled
      · next present =>
          split at settled
          · cases settled
          · next others final inner =>
              cases settled
              rcases induction
                  (fun other member =>
                    admits other (List.mem_cons_of_mem fwd member))
                  queries inner with
                ⟨connects, connected⟩
              refine ⟨connects, ?_⟩
              intro other member
              rcases List.mem_cons.mp member with rfl | inside
              · exact .inl ⟨List.mem_cons_self, present⟩
              · rcases connected other inside with ⟨old, joined⟩ | attached
                · exact .inl ⟨List.mem_cons_of_mem fwd old, joined⟩
                · exact .inr attached
      · next absent =>
          have pending : fwd.proxy = none := by
            simpa using absent
          split at settled
          · cases settled
          · next left mid first =>
              rcases settlePending_spec
                  (admits fwd List.mem_cons_self pending) queries
                  first with
                ⟨early, flow⟩
              split at settled
              · cases settled
              · next others final inner =>
                  cases settled
                  rcases induction
                      (fun other member => by
                        rw [early.conf]
                        exact admits other
                          (List.mem_cons_of_mem fwd member))
                      (early.conf ▸ queries) inner with
                    ⟨connects, connected⟩
                  refine ⟨early.trans connects, ?_⟩
                  intro other member
                  rcases List.mem_append.mp member with inside | inside
                  · have attached := flow other (by simpa using inside)
                    exact .inr (attached.connects connects)
                  · rcases connected other inside with
                      ⟨old, joined⟩ | attached
                    · exact .inl ⟨List.mem_cons_of_mem fwd old, joined⟩
                    · exact .inr attached

end Pending

/-- The association has become ready; the pending flows still wait. -/
def becomesReady (assoc : Assoc) (core : CoreCtx) : CoreCtx :=
  { core with
    udpassoc := some assoc
    assocready := true
    assocretries := 0
    trace := core.trace ++ [.assocReady] }

theorem assocSucceeds_cases
    {inet : Inet} {core after : CoreCtx}
    (handled : assocSucceeds inet core = .ok after) :
    ∃ assoc events kept last,
      core.udpassoc = some assoc ∧
        settle inet core.udplst
            (becomesReady
              ⟨assoc.number, { assoc.self with events := events }⟩
              core) =
          .ok (kept, last) ∧
        after = { last with udplst := kept } := by
  simp only [assocSucceeds] at handled
  split at handled
  · cases handled
  · next assoc present =>
      split at handled
      · cases handled
      · next kept last settled =>
          cases handled
          split at settled
          · exact ⟨assoc, _, kept, last, present, settled, rfl⟩
          · exact
              ⟨assoc, assoc.self.events, kept, last, present, settled,
                rfl⟩

end Nsproxy.Core.UdpFrames
