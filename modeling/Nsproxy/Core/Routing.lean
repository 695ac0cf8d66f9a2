import Mathlib.Tactic.Common
import Nsproxy.Core.UdpFrames

/-!
# Which way a flow takes

The decision between the proxy and a direct socket is written out in
`core_tcp_new`, in `core_udp_new`, for the pending flows in
`udp_assoc_io_event`, and in `tcpdns_send`.  `Asked` is the decision itself:
for whom a connection may be made, and how, under a given configuration.

Every connection of a run is recorded with the configuration of the moment
in which it was made.  The table of CIDR blocks may grow while a flow is
pending, and it is the grown table which counts then.
-/

namespace Nsproxy.Core.Routing

open Nsproxy.Conf
open Nsproxy.Lib.Transition
open Nsproxy.Lwip.Opts
open Nsproxy.Lwip.Buffers
open Nsproxy.Skutils
open Nsproxy.Socks
open Nsproxy.Core.UdpFlows
open Nsproxy.Core.UdpFrames

/-! ## The decision -/

/-- How a flow which is not exempt reaches its destination. -/
inductive Proxied (type : ProxyType) (addr : Text) (port : UInt16) :
    Proto → Via → Prop where
  | socks (same : type = .socks5) :
      Proxied type addr port .tcp (.socks addr port)
  | relay (same : type = .socks5) :
      Proxied type addr port .udp (.relay addr port)
  | http (same : type = .http) :
      Proxied type addr port .tcp (.http addr port)
  | none (same : type = .direct) :
      Proxied type addr port proto (.direct addr port)

/-- For whom a connection may be made, and how. -/
inductive Asked (inet : Inet) (conf : Nspconf) : Purpose → Via → Prop where
  | loopback
      (gateway : isGateway conf addr = true) :
      Asked inet conf (.flow proto addr port)
        (.direct (localhost addr) port)
  | nameserver
      (gateway : isGateway conf addr = true)
      (port : wanted = 53)
      (dns : conf.dnstype = .udp) :
      Asked inet conf (.flow .udp addr wanted)
        (.direct conf.dnssrv conf.dnsport)
  | bypass
      (outside : isGateway conf addr = false)
      (listed : isDirectCidrTarget conf addr = true) :
      Asked inet conf (.flow proto addr port)
        (.direct (inet.ntoa addr) port)
  | proxied
      (outside : isGateway conf addr = false)
      (unlisted : isDirectCidrTarget conf addr = false)
      (proxied :
        Proxied conf.proxytype (inet.ntoa addr) port proto via) :
      Asked inet conf (.flow proto addr port) via
  | query :
      Asked inet conf .query (queryVia conf)

/-- A direct socket. -/
def isDirect : Via → Bool
  | .direct _ _ => true
  | _ => false

theorem Proxied.not_direct
    {type : ProxyType} {addr : Text} {port : UInt16} {proto : Proto}
    {via : Via} (proxied : Proxied type addr port proto via)
    (through : type ≠ .direct) :
    isDirect via = false := by
  cases proxied with
  | none same =>
      exact absurd same through
  | _ => rfl

/-- Outside the gateway the table alone decides. -/
theorem Asked.direct_iff
    {inet : Inet} {conf : Nspconf} {proto : Proto} {addr : IpAddr}
    {port : UInt16} {via : Via}
    (asked : Asked inet conf (.flow proto addr port) via)
    (through : conf.proxytype ≠ .direct)
    (outside : isGateway conf addr = false) :
    isDirect via = true ↔ isDirectCidrTarget conf addr = true := by
  cases asked with
  | loopback gateway =>
      rw [outside] at gateway
      cases gateway
  | nameserver gateway wanted dns =>
      rw [outside] at gateway
      cases gateway
  | bypass _ listed =>
      exact ⟨fun _ => listed, fun _ => rfl⟩
  | proxied _ unlisted proxied =>
      rw [proxied.not_direct through, unlisted]

theorem Asked.query_not_direct
    {inet : Inet} {conf : Nspconf} {via : Via}
    (asked : Asked inet conf .query via)
    (through : conf.proxytype ≠ .direct) :
    isDirect via = false := by
  cases asked with
  | query =>
      cases type : conf.proxytype with
      | direct =>
          exact absurd type through
      | socks5 =>
          rw [queryVia, type]
          rfl
      | http =>
          rw [queryVia, type]
          rfl

/-- What a direct socket for a gateway flow is for. -/
theorem Asked.gateway
    {inet : Inet} {conf : Nspconf} {proto : Proto} {addr : IpAddr}
    {port : UInt16} {via : Via}
    (asked : Asked inet conf (.flow proto addr port) via)
    (gateway : isGateway conf addr = true) :
    via = .direct (localhost addr) port ∨
      (proto = .udp ∧ port = 53 ∧ conf.dnstype = .udp ∧
        via = .direct conf.dnssrv conf.dnsport) := by
  cases asked with
  | loopback _ =>
      exact .inl rfl
  | nameserver _ wanted dns =>
      exact .inr ⟨rfl, wanted, dns, rfl⟩
  | bypass outside _ =>
      rw [gateway] at outside
      cases outside
  | proxied outside _ _ =>
      rw [gateway] at outside
      cases outside

/-! ## The four places which decide -/

/-- `core_tcp_new`. -/
theorem asked_tcpRoute
    (inet : Inet) (conf : Nspconf) (addr : IpAddr) (port : UInt16) :
    Asked inet conf (.flow .tcp addr port)
      (tcpRoute inet conf addr port) := by
  simp only [tcpRoute]
  split
  · next gateway =>
      exact .loopback gateway
  · next outside =>
      have outside : isGateway conf addr = false := by
        simpa using outside
      split
      · next listed =>
          exact .bypass outside listed
      · next unlisted =>
          have unlisted : isDirectCidrTarget conf addr = false := by
            simpa using unlisted
          split
          · next type =>
              exact .proxied outside unlisted (.socks type)
          · next type =>
              exact .proxied outside unlisted (.http type)
          · next type =>
              exact .proxied outside unlisted (.none type)

theorem connects_coreTcpNew
    (inet : Inet) (addr : IpAddr) (port : UInt16) (core : CoreCtx) :
    Connects (Asked inet core.conf) core
      (coreTcpNew inet addr port core) := by
  simp only [coreTcpNew]
  split
  · exact Connects.refl core
  · exact
      connects_callConnect (asked_tcpRoute inet core.conf addr port) core

/-- A direct socket for a new flow. -/
theorem direct_spec
    {inet : Inet} {fwd : UdpForward} {addr : Text} {port : UInt16}
    {core last : CoreCtx}
    (asked : Asked inet core.conf fwd.purpose (.direct addr port))
    {proxy : Option UdpProxy}
    (made : directUdpCreate fwd addr port core = (proxy, last)) :
    Connects (Asked inet core.conf) core last ∧
      ∀ held ∈ proxy, Held last fwd held := by
  have connects := connects_directUdpCreate asked core
  have holds :
      ∀ held ∈ (directUdpCreate fwd addr port core).1,
        Held _ fwd held :=
    fun _ member => held_directUdpCreate member
  rw [made] at connects holds
  exact ⟨connects, holds⟩

theorem relay_spec
    {inet : Inet} {fwd : UdpForward} {assoc : Assoc} {addr : Text}
    {port : UInt16} {core last : CoreCtx}
    (asked : Asked inet core.conf fwd.purpose (.relay addr port))
    {proxy : Option UdpProxy}
    (made : relayCreate fwd assoc addr port core = (proxy, last)) :
    Connects (Asked inet core.conf) core last ∧
      ∀ held ∈ proxy, Held last fwd held := by
  have connects := connects_relayCreate assoc asked core
  have holds :
      ∀ held ∈ (relayCreate fwd assoc addr port core).1,
        Held _ fwd held :=
    fun _ member => held_relayCreate member
  rw [made] at connects holds
  exact ⟨connects, holds⟩

/-- `core_udp_new`, for a flow which does not wait. -/
theorem udpRoute_spec
    {inet : Inet} {fwd : UdpForward} {core last : CoreCtx}
    {proxy : Option UdpProxy}
    (routed : udpRoute inet fwd core = .ok (proxy, last)) :
    Connects (Asked inet core.conf) core last ∧
      ∀ held ∈ proxy, Held last fwd held := by
  simp only [udpRoute] at routed
  split at routed
  · next dns =>
      simp only [Bool.and_eq_true, decide_eq_true_eq] at dns
      rcases dns with ⟨⟨gateway, port⟩, on⟩
      split at routed
      · next tcp =>
          have parts := Prod.mk.inj (Except.ok.inj routed)
          rw [← parts.1, ← parts.2]
          refine ⟨Connects.refl core, ?_⟩
          intro held member
          split at member
          · cases member
            exact .nameserver gateway port
          · cases member
      · next other =>
          have udp : core.conf.dnstype = .udp := by
            cases type : core.conf.dnstype with
            | off =>
                exact absurd type on
            | tcp =>
                exact absurd type other
            | udp => rfl
          exact direct_spec (.nameserver gateway port udp)
            (Except.ok.inj routed)
  · split at routed
    · next gateway =>
        exact direct_spec (.loopback gateway) (Except.ok.inj routed)
    · next outside =>
        have outside : isGateway core.conf fwd.localIp = false := by
          simpa using outside
        split at routed
        · next listed =>
            exact direct_spec (.bypass outside listed)
              (Except.ok.inj routed)
        · next unlisted =>
            have unlisted :
                isDirectCidrTarget core.conf fwd.localIp = false := by
              simpa using unlisted
            split at routed
            · next type =>
                split at routed
                · cases routed
                · exact relay_spec
                    (.proxied outside unlisted (.relay type))
                    (Except.ok.inj routed)
            · next type =>
                exact direct_spec
                  (.proxied outside unlisted (.none type))
                  (Except.ok.inj routed)
            · cases routed
              refine ⟨Connects.refl core, ?_⟩
              intro held member
              cases member

/-- The pending flows of `udp_assoc_io_event`. -/
theorem admits_pending
    (inet : Inet) {conf : Nspconf} {fwd : UdpForward}
    (socks : conf.proxytype = .socks5)
    (outside : isGateway conf fwd.localIp = false) :
    Admits inet conf (Asked inet conf) fwd where
  bypass := fun listed => .bypass outside listed
  relay := fun unlisted =>
    .proxied outside unlisted (.relay socks)

/-! ## One event -/

/-- A new flow which waits for the association. -/
structure Waits (core : CoreCtx) (fwd : UdpForward) : Prop where
  proxy : fwd.proxy = none
  outside : isGateway core.conf fwd.localIp = false
  socks : core.conf.proxytype = .socks5

/--
Every new connection is one which was asked for, a new flow's one under the
present table.
-/
def Traced (inet : Inet) (before after : CoreCtx) : Prop :=
  ∃ entries,
    after.trace = before.trace ++ entries ∧
      ∀ purpose via conf, .connect purpose via conf ∈ entries →
        SameSettings before.conf conf ∧ Asked inet conf purpose via ∧
          (purpose = .query ∨ conf = before.conf)

/-- What an event does, as far as the ways of the flows are concerned. -/
structure Continues (inet : Inet) (before after : CoreCtx) : Prop where
  settings : SameSettings before.conf after.conf
  traced : Traced inet before after
  forwards :
    ∀ fwd ∈ after.udplst,
      (∃ old ∈ before.udplst, SameFlow old fwd) ∨
        Attached after fwd ∨ Waits after fwd

theorem traced_of_connects
    {inet : Inet} {before after : CoreCtx}
    (connects : Connects (Asked inet before.conf) before after) :
    Traced inet before after := by
  rcases connects with ⟨_, entries, rfl, fine⟩
  refine ⟨entries, rfl, ?_⟩
  intro purpose via conf member
  rcases fine _ member with ⟨_, _, asked, same⟩
  cases same
  exact ⟨SameSettings.refl _, asked, .inr rfl⟩

/-- The connections of flows which exist already. -/
def Queries (conf : Nspconf) (purpose : Purpose) (via : Via) : Prop :=
  purpose = .query ∧ via = queryVia conf

theorem queries_query (conf : Nspconf) :
    Queries conf .query (queryVia conf) :=
  ⟨rfl, rfl⟩

theorem traced_of_connected
    {inet : Inet} {before after : CoreCtx}
    (connected : Connected Queries before after) :
    Traced inet before after := by
  rcases connected with ⟨entries, trace, fine⟩
  refine ⟨entries, trace, ?_⟩
  intro purpose via conf member
  rcases fine _ member with ⟨_, _, _, settings, ⟨rfl, rfl⟩, same⟩
  cases same
  exact ⟨settings, .query, .inl rfl⟩

/-- Nothing was recorded but the fate of the association. -/
structure Quiet (before after : CoreCtx) : Prop where
  conf : after.conf = before.conf
  udplst : after.udplst = before.udplst
  trace :
    ∃ entries,
      after.trace = before.trace ++ entries ∧
        ∀ purpose via conf, .connect purpose via conf ∉ entries

theorem Quiet.traced
    {inet : Inet} {before after : CoreCtx} (quiet : Quiet before after) :
    Traced inet before after := by
  rcases quiet.trace with ⟨entries, trace, silent⟩
  refine ⟨entries, trace, ?_⟩
  intro purpose via conf member
  exact absurd member (silent purpose via conf)

theorem Quiet.trans
    {first second third : CoreCtx}
    (before : Quiet first second) (after : Quiet second third) :
    Quiet first third := by
  rcases before.trace with ⟨front, early, frontSilent⟩
  rcases after.trace with ⟨back, late, backSilent⟩
  refine
    ⟨after.conf.trans before.conf, after.udplst.trans before.udplst,
      front ++ back, ?_, ?_⟩
  · rw [late, early, List.append_assoc]
  · intro purpose via conf member
    rcases List.mem_append.mp member with inside | inside
    · exact frontSilent purpose via conf inside
    · exact backSilent purpose via conf inside

theorem Quiet.refl (core : CoreCtx) : Quiet core core := by
  refine ⟨rfl, rfl, [], (List.append_nil _).symm, ?_⟩
  intro purpose via conf member
  cases member

theorem quiet_coreStartUdpAssoc (core : CoreCtx) :
    Quiet core (coreStartUdpAssoc core) := by
  simp only [coreStartUdpAssoc]
  split
  · exact Quiet.refl core
  · split
    · exact Quiet.refl core
    · split
      · exact ⟨rfl, rfl, [_], rfl, by simp⟩
      · exact ⟨rfl, rfl, [_, _], rfl, by simp⟩

theorem quiet_coreReassocTmr (core : CoreCtx) :
    Quiet core (coreReassocTmr core) := by
  have ticked : Quiet core (core.record [.reassocTick]) :=
    ⟨rfl, rfl, [_], rfl, by simp⟩
  simp only [coreReassocTmr]
  split
  · exact ticked
  · split
    · split
      · exact ⟨rfl, rfl, [_], rfl, by simp⟩
      · exact ticked.trans (quiet_coreStartUdpAssoc _)
    · exact ticked

theorem Quiet.continues
    {inet : Inet} {before after : CoreCtx} (quiet : Quiet before after) :
    Continues inet before after := by
  refine ⟨?_, quiet.traced, ?_⟩
  · rw [quiet.conf]
    exact SameSettings.refl _
  · rw [quiet.udplst]
    intro fwd member
    exact .inl ⟨fwd, member, SameFlow.refl fwd⟩

/-- A step before the flows are looked at changes nothing of them. -/
theorem Continues.after_quiet
    {inet : Inet} {first second third : CoreCtx}
    (quiet : Quiet first second)
    (continues : Continues inet second third) :
    Continues inet first third := by
  rcases quiet.trace with ⟨front, early, silent⟩
  rcases continues.traced with ⟨back, late, fine⟩
  refine ⟨?_, ⟨front ++ back, ?_, ?_⟩, ?_⟩
  · rw [← quiet.conf]
    exact continues.settings
  · rw [late, early, List.append_assoc]
  · intro purpose via conf member
    rcases List.mem_append.mp member with inside | inside
    · exact absurd inside (silent purpose via conf)
    · rw [← quiet.conf]
      exact fine purpose via conf inside
  · rw [← quiet.udplst]
    exact continues.forwards

theorem continues_onForward
    {inet : Inet}
    {run : UdpForward → CoreCtx → Option UdpForward × CoreCtx}
    (runs : ∀ fwd core, Runs Queries fwd core (run fwd core))
    (number : Nat) (core : CoreCtx) :
    Continues inet core (onForward number run core) := by
  rcases onForward_works runs number core with
    ⟨mid, kept, works, same, flows⟩
  rw [same]
  refine ⟨works.undisturbed.settings, ?_, ?_⟩
  · exact traced_of_connected works.connected
  · intro fwd member
    exact .inl (flows fwd member)

theorem flows_coreGcTmr
    {core : CoreCtx} {fwd : UdpForward}
    (member : fwd ∈ (coreGcTmr core).udplst) :
    ∃ old ∈ core.udplst, SameFlow old fwd := by
  simp only [coreGcTmr, List.mem_filterMap] at member
  rcases member with ⟨old, inside, kept⟩
  split at kept
  · cases kept
  · cases kept
    exact ⟨old, inside, ⟨rfl, rfl, rfl⟩⟩

theorem continues_coreTick (inet : Inet) (core : CoreCtx) :
    Continues inet core (coreTick core) := by
  have quiet := quiet_coreReassocTmr (coreGcTmr core)
  rcases quiet.trace with ⟨entries, trace, silent⟩
  refine ⟨?_, ⟨entries, trace, ?_⟩, ?_⟩
  · rw [coreTick, quiet.conf]
    exact SameSettings.refl _
  · intro purpose via conf member
    exact absurd member (silent purpose via conf)
  · rw [coreTick, quiet.udplst]
    intro fwd member
    exact .inl (flows_coreGcTmr member)

theorem continues_coreTcpNew
    (inet : Inet) (addr : IpAddr) (port : UInt16) (core : CoreCtx) :
    Continues inet core (coreTcpNew inet addr port core) := by
  have connects := connects_coreTcpNew inet addr port core
  refine ⟨connects.undisturbed.settings, ?_, ?_⟩
  · exact traced_of_connects connects
  · rw [connects.undisturbed.udplst]
    intro fwd member
    exact .inl ⟨fwd, member, SameFlow.refl fwd⟩

/-- The flow goes its way at once, or it waits. -/
theorem continues_coreUdpNew
    {inet : Inet} {addr : IpAddr} {port : UInt16} {core after : CoreCtx}
    (handled : coreUdpNew inet addr port core = .ok after) :
    Continues inet core after := by
  simp only [coreUdpNew] at handled
  split at handled
  · next waits =>
      cases handled
      have quiet :=
        quiet_coreStartUdpAssoc
          { core with
            nextForward := core.nextForward + 1
            udplst := udpForwardCreate addr port core :: core.udplst }
      refine ⟨?_, quiet.traced, ?_⟩
      · rw [quiet.conf]
        exact SameSettings.refl _
      · intro fwd member
        rw [quiet.udplst] at member
        rcases List.mem_cons.mp member with rfl | inside
        · simp only [leavesPending, Bool.and_eq_true, Bool.not_eq_true',
            beq_iff_eq] at waits
          refine .inr (.inr ⟨rfl, ?_, ?_⟩)
          · rw [quiet.conf]
            exact waits.1.1.1
          · rw [quiet.conf]
            exact waits.1.2
        · exact .inl ⟨fwd, inside, SameFlow.refl fwd⟩
  · split at handled
    · cases handled
    · next last routed =>
        cases handled
        rcases udpRoute_spec routed with ⟨connects, _⟩
        have traced := traced_of_connects connects
        refine ⟨connects.undisturbed.settings, traced, ?_⟩
        rw [connects.undisturbed.udplst]
        intro fwd member
        exact .inl ⟨fwd, member, SameFlow.refl fwd⟩
    · next proxy last routed =>
        cases handled
        rcases udpRoute_spec routed with ⟨connects, holds⟩
        have traced := traced_of_connects connects
        refine ⟨connects.undisturbed.settings, traced, ?_⟩
        intro fwd member
        rcases List.mem_cons.mp member with rfl | inside
        · refine .inr (.inl ⟨proxy, rfl, ?_⟩)
          exact
            (holds proxy rfl).later (SameSettings.refl _)
              (List.prefix_refl _) rfl rfl
        · rw [connects.undisturbed.udplst] at inside
          exact .inl ⟨fwd, inside, SameFlow.refl fwd⟩

theorem continues_assocLost
    {inet : Inet} {core after : CoreCtx}
    (handled : assocLost core = .ok after) :
    Continues inet core after := by
  simp only [assocLost] at handled
  split at handled
  · cases handled
  · cases handled
    refine ⟨SameSettings.refl _, ⟨[_, _], rfl, by simp⟩, ?_⟩
    intro fwd member
    exact .inl ⟨fwd, List.mem_of_mem_filter member, SameFlow.refl fwd⟩

/-- Every pending flow is decided under the present table. -/
theorem continues_settle
    {inet : Inet} {ready last : CoreCtx} {kept : List UdpForward}
    (waits : ∀ fwd ∈ ready.udplst, fwd.proxy = none → Waits ready fwd)
    (settled : settle inet ready.udplst ready = .ok (kept, last)) :
    Continues inet ready { last with udplst := kept } := by
  have asks :
      ∀ fwd ∈ ready.udplst, fwd.proxy = none →
        Admits inet ready.conf (Asked inet ready.conf) fwd := by
    intro fwd member pending
    have waiting := waits fwd member pending
    exact admits_pending inet waiting.socks waiting.outside
  rcases settle_spec asks .query settled with ⟨connects, forwards⟩
  have traced := traced_of_connects connects
  refine ⟨connects.undisturbed.settings, traced, ?_⟩
  intro fwd member
  rcases forwards fwd member with ⟨old, _⟩ | ⟨proxy, present, held⟩
  · exact .inl ⟨fwd, old, SameFlow.refl fwd⟩
  · refine .inr (.inl ⟨proxy, present, ?_⟩)
    exact held.later (SameSettings.refl _) (List.prefix_refl _) rfl rfl

theorem continues_assocSucceeds
    {inet : Inet} {core after : CoreCtx}
    (waits : ∀ fwd ∈ core.udplst, fwd.proxy = none → Waits core fwd)
    (handled : assocSucceeds inet core = .ok after) :
    Continues inet core after := by
  rcases assocSucceeds_cases handled with
    ⟨assoc, events, kept, last, _, settled, rfl⟩
  have ready :
      Quiet core
        (becomesReady
          ⟨assoc.number, { assoc.self with events := events }⟩ core) :=
    ⟨rfl, rfl, [.assocReady], rfl, by simp⟩
  apply Continues.after_quiet ready
  refine continues_settle ?_ settled
  intro fwd member pending
  have waiting := waits fwd member pending
  exact ⟨waiting.proxy, waiting.outside, waiting.socks⟩

theorem continues_udpAssocIoEvent
    {inet : Inet} {events : EventMask} {core after : CoreCtx}
    (waits : ∀ fwd ∈ core.udplst, fwd.proxy = none → Waits core fwd)
    (handled : udpAssocIoEvent inet events core = .ok after) :
    Continues inet core after := by
  simp only [udpAssocIoEvent] at handled
  split at handled
  · exact continues_assocLost handled
  · exact continues_assocSucceeds waits handled

theorem continues_assocEpollEvent
    {inet : Inet} {events : EventMask} {handshake : HandshakeAnswers}
    {core after : CoreCtx}
    (waits : ∀ fwd ∈ core.udplst, fwd.proxy = none → Waits core fwd)
    (handled : assocEpollEvent inet events handshake core = .ok after) :
    Continues inet core after := by
  simp only [assocEpollEvent] at handled
  split at handled
  · cases handled
  · next assoc present =>
      split at handled
      · cases handled
      · next self told stepped =>
          have quiet :
              Quiet core
                { core with
                  udpassoc := some { assoc with self := self } } :=
            ⟨rfl, rfl, [], (List.append_nil _).symm, by simp⟩
          split at handled
          · cases handled
            exact quiet.continues
          · apply Continues.after_quiet quiet
            refine continues_udpAssocIoEvent ?_ handled
            intro fwd member pending
            have waiting := waits fwd member pending
            exact ⟨waiting.proxy, waiting.outside, waiting.socks⟩

theorem continues_coreStep
    {inet : Inet} {core after : CoreCtx} {turn : CoreTurn}
    (waits : ∀ fwd ∈ core.udplst, fwd.proxy = none → Waits core fwd)
    (handled : coreStep inet core turn = .ok after) :
    Continues inet core after := by
  have quiet : Quiet core (core.prepare turn) :=
    ⟨rfl, rfl, [], (List.append_nil _).symm, by simp⟩
  apply Continues.after_quiet quiet
  rcases turn with ⟨event, answers⟩
  cases event with
  | newTcp addr port =>
      cases handled
      exact continues_coreTcpNew inet addr port _
  | newUdp addr port =>
      exact continues_coreUdpNew handled
  | datagram number chain =>
      cases handled
      exact continues_onForward
        (runs_udpLwipReceived queries_query chain) number _
  | proxyEvent number events incoming =>
      cases handled
      exact continues_onForward
        (runs_forwardIoEvent queries_query events incoming) number _
  | assocEvent events handshake =>
      refine continues_assocEpollEvent ?_ handled
      intro fwd member pending
      have waiting := waits fwd member pending
      exact ⟨waiting.proxy, waiting.outside, waiting.socks⟩
  | tick =>
      cases handled
      exact continues_coreTick inet _

/-! ## Runs -/

/-- Every connection was asked for, and every proxy object is accounted for. -/
structure Routed (inet : Inet) (core : CoreCtx) : Prop where
  through : core.conf.proxytype ≠ .direct
  waits : ∀ fwd ∈ core.udplst, fwd.proxy = none → Waits core fwd
  held : ∀ fwd ∈ core.udplst, ∀ proxy ∈ fwd.proxy, Held core fwd proxy
  asked :
    ∀ purpose via conf, .connect purpose via conf ∈ core.trace →
      conf.proxytype ≠ .direct ∧ Asked inet conf purpose via

theorem SameSettings.proxytype
    {before after : Nspconf} (settings : SameSettings before after) :
    after.proxytype = before.proxytype := by
  rcases settings with ⟨_, _, rfl⟩
  rfl

theorem Continues.routed
    {inet : Inet} {before after : CoreCtx}
    (continues : Continues inet before after)
    (holds : Routed inet before) :
    Routed inet after := by
  rcases continues.traced with ⟨entries, trace, fine⟩
  have type := SameSettings.proxytype continues.settings
  refine ⟨?_, ?_, ?_, ?_⟩
  · rw [type]
    exact holds.through
  · intro fwd member pending
    rcases continues.forwards fwd member with
      ⟨old, inside, same⟩ | ⟨proxy, present, _⟩ | waits
    · have waiting :=
        holds.waits old inside (same.proxy.symm.trans pending)
      refine ⟨pending, ?_, type.trans waiting.socks⟩
      rw [continues.settings.isGateway, same.localIp]
      exact waiting.outside
    · rw [pending] at present
      cases present
    · exact waits
  · intro fwd member proxy present
    rcases continues.forwards fwd member with
      ⟨old, inside, same⟩ | ⟨other, attached, held⟩ | waits
    · have earlier :=
        holds.held old inside proxy (same.proxy.symm.trans present)
      refine
        earlier.later continues.settings ?_ same.localIp same.localPort
      rw [trace]
      exact List.prefix_append _ entries
    · rw [attached] at present
      cases present
      exact held
    · rw [waits.proxy] at present
      cases present
  · intro purpose via conf member
    rw [trace] at member
    rcases List.mem_append.mp member with inside | inside
    · exact holds.asked purpose via conf inside
    · rcases fine purpose via conf inside with ⟨settings, asked, _⟩
      refine ⟨?_, asked⟩
      rw [SameSettings.proxytype settings]
      exact holds.through

/-- The runs with a SOCKS5 or an HTTP proxy. -/
def proxySystem (inet : Inet) : System Fault CoreCtx CoreTurn :=
  (coreSystem inet).restrict (fun core => core.conf.proxytype ≠ .direct)
    fun _ _ => True

theorem routed_of_reachable
    {inet : Inet} {core : CoreCtx}
    (reachable : (proxySystem inet).Reachable core) :
    Routed inet core := by
  apply reachable.invariant
  · rintro source ⟨⟨conf, rfl⟩, through⟩
    refine ⟨through, ?_, ?_, ?_⟩
    · intro fwd member
      cases member
    · intro fwd member
      cases member
    · intro purpose via conf member
      cases member
  · intro source turn target holds _ handled
    exact (continues_coreStep holds.waits handled).routed holds

/-- The ways which the flows of a run have taken. -/
structure Faithful (inet : Inet) (core : CoreCtx) : Prop where
  /-- Outside the gateway the table of the moment decides. -/
  decided :
    ∀ proto addr port via conf,
      .connect (.flow proto addr port) via conf ∈ core.trace →
      isGateway conf addr = false →
      (isDirect via = true ↔ isDirectCidrTarget conf addr = true)
  queries :
    ∀ via conf, .connect .query via conf ∈ core.trace →
      isDirect via = false
  /-- Flows to the gateway reach the host or the UDP nameserver. -/
  gateway :
    ∀ proto addr port via conf,
      .connect (.flow proto addr port) via conf ∈ core.trace →
      isGateway conf addr = true →
      via = .direct (localhost addr) port ∨
        (proto = .udp ∧ port = 53 ∧ conf.dnstype = .udp ∧
          via = .direct conf.dnssrv conf.dnsport)
  held : ∀ fwd ∈ core.udplst, ∀ proxy ∈ fwd.proxy, Held core fwd proxy
  /-- The next event connects flows under the present configuration. -/
  moment :
    ∀ turn after, coreStep inet core turn = .ok after →
      ∃ entries, after.trace = core.trace ++ entries ∧
        ∀ proto addr port via conf,
          .connect (.flow proto addr port) via conf ∈ entries →
          conf = core.conf

theorem no_proxy_bypass
    {inet : Inet} {core : CoreCtx}
    (reachable : (proxySystem inet).Reachable core) :
    Faithful inet core := by
  have routed := routed_of_reachable reachable
  constructor
  · intro proto addr port via conf member outside
    rcases routed.asked _ _ _ member with ⟨through, asked⟩
    exact asked.direct_iff through outside
  · intro via conf member
    rcases routed.asked _ _ _ member with ⟨through, asked⟩
    exact asked.query_not_direct through
  · intro proto addr port via conf member gateway
    rcases routed.asked _ _ _ member with ⟨_, asked⟩
    exact asked.gateway gateway
  · exact routed.held
  · intro turn after handled
    rcases (continues_coreStep routed.waits handled).traced with
      ⟨entries, trace, fine⟩
    refine ⟨entries, trace, ?_⟩
    intro proto addr port via conf member
    rcases fine _ _ _ member with ⟨_, _, query | same⟩
    · cases query
    · exact same

/-! ## A flow which the table overtakes -/

/-- A SOCKS5 proxy, and a nameserver which is asked over UDP. -/
def sampleConf : Nspconf where
  proxysrv := ascii "127.0.0.1"
  proxyport := 1080
  proxytype := .socks5
  dnssrv := ascii "1.1.1.1"
  dnsport := 53
  dnstype := .udp
  proxyuser := []
  proxypass := []
  ipv6 := false
  directCidrs := []
  directCidrCapacity := 0
  directCidrMode := .whitelist

/-- The destination of the flow. -/
def sampleAddr : IpAddr := .v4 sampleV4

def sampleInet : Inet where
  pton4 text :=
    if text = ascii "0.0.0.0" then some #v[0, 0, 0, 0] else none
  pton6 _ := none
  ntop4 addr :=
    if addr = sampleV4 then ascii "10.0.0.1"
    else ascii "0.0.0.0"
  ntop6 _ := ascii "::"
  ntoa addr :=
    if addr = sampleAddr then ascii "10.0.0.1" else ascii "10.0.0.2"

/-- Every call of the kernel succeeds. -/
def sampleTurn (event : CoreEvent) : CoreTurn where
  event := event
  answers := ⟨[], [], true, true⟩

/-- The socket of the association sends everything and receives this. -/
def sampleAssoc (events : EventMask) (bytes : List UInt8) : CoreTurn :=
  sampleTurn
    (.assocEvent events
      ⟨.accept 1023, .data bytes, .data bytes, true⟩)

/--
While a flow waits for the association, a DNS response adds its destination
to the table.
-/
def sampleRun : List CoreTurn :=
  [ sampleTurn (.newUdp gatewayIp 53),
    sampleTurn (.newUdp sampleAddr 9),
    sampleTurn
      (.proxyEvent 0 epollin
        [⟨.data [0], [⟨.inet, 32, #v[10, 0, 0, 1, 0, 0, 0, 0, 0, 0, 0, 0,
          0, 0, 0, 0]⟩], .ok⟩]),
    sampleAssoc epollout [],
    sampleAssoc epollin [5, 0],
    sampleAssoc epollout [],
    sampleAssoc epollin [5, 0, 0, 1, 10, 0, 0, 1, 4, 0],
    sampleAssoc epollout [],
    sampleTurn (.newTcp (.v4 #v[10, 0, 0, 2]) 80) ]

/-- The pending flow goes directly, and another connection to the proxy. -/
def sampleWays (core : CoreCtx) : Bool :=
  core.trace.any (fun action =>
      match action with
      | .connect purpose via _ =>
          purpose == .flow .udp sampleAddr 9 && isDirect via
      | _ => false) &&
    core.trace.any fun action =>
      match action with
      | .connect purpose via _ =>
          purpose == .flow .tcp (.v4 #v[10, 0, 0, 2]) 80 &&
            via == .socks (ascii "10.0.0.2") 80
      | _ => false

instance (inet : Inet) (core : CoreCtx) (turn : CoreTurn) :
    Decidable ((proxySystem inet).enabled core turn) :=
  inferInstanceAs (Decidable (coreEnabled core turn ∧ True))

theorem no_proxy_bypass_overtaken :
    ∃ core, sampleWays core = true ∧ Faithful sampleInet core := by
  have passes :
      ((proxySystem sampleInet).replay (coreInit sampleConf)
          sampleRun).map sampleWays =
        some true := by
    decide +kernel
  have first : (proxySystem sampleInet).initial (coreInit sampleConf) :=
    ⟨⟨sampleConf, rfl⟩, by decide⟩
  rcases System.Reachable.exists_replay (.start first) passes with
    ⟨core, reachable, taken⟩
  exact ⟨core, taken, no_proxy_bypass reachable⟩

end Nsproxy.Core.Routing
