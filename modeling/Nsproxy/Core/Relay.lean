import Mathlib.Tactic.Common
import Nsproxy.Core.UdpAssoc

/-!
# The relay of a lost association

A socket to the relay of the SOCKS5 server is good for as long as the
association lasts under which it was made.  `Bound` says that every such
socket belongs to the present association.

Associations are numbered in the order in which they are made, and a forward
remembers the number of the association which gave it its relay.

When an association is lost, `udp_assoc_io_event` destroys the flows which
were still waiting for it and keeps those which already had a relay.  So
`Bound` holds in the runs in which no flow has a relay at that moment, and in
no others.
-/

namespace Nsproxy.Core.Relay

open Nsproxy.Conf
open Nsproxy.Lib.Transition
open Nsproxy.Lwip.Opts
open Nsproxy.Lwip.Buffers
open Nsproxy.Skutils
open Nsproxy.Socks
open Nsproxy.Core.UdpFlows
open Nsproxy.Core.UdpFrames
open Nsproxy.Core.Routing
open Nsproxy.Core.UdpAssoc

/-! ## Flows and their association -/

/-- The association with this number is there and forwards. -/
def Present (core : CoreCtx) (number : Nat) : Prop :=
  ∃ assoc ∈ core.udpassoc,
    assoc.number = number ∧ assoc.self.phase = .forwarding

/-- The relay of this forward, if it has one, is that of the association. -/
def Tied (core : CoreCtx) (fwd : UdpForward) : Prop :=
  ∀ number self,
    fwd.proxy = some (.socks number self) → Present core number

/-- Every relay belongs to the present association. -/
def Bound (core : CoreCtx) : Prop := ∀ fwd ∈ core.udplst, Tied core fwd

theorem Tied.same
    {before after : CoreCtx} {old fwd : UdpForward}
    (tied : Tied before old) (flow : SameFlow old fwd)
    (assoc : after.udpassoc = before.udpassoc) :
    Tied after fwd := by
  intro number self relay
  rcases tied number self (flow.proxy.symm.trans relay) with
    ⟨found, present, facts⟩
  exact ⟨found, assoc ▸ present, facts⟩

/-- The forwards are as before, and so is the association. -/
theorem Bound.same
    {before after : CoreCtx} (bound : Bound before)
    (assoc : after.udpassoc = before.udpassoc)
    (flows :
      ∀ fwd ∈ after.udplst, ∃ old ∈ before.udplst, SameFlow old fwd) :
    Bound after := by
  intro fwd member
  rcases flows fwd member with ⟨old, inside, flow⟩
  exact (bound old inside).same flow assoc

/-- The relays of this list of forwards. -/
def Unrelayed (core : CoreCtx) : Prop :=
  ∀ fwd ∈ core.udplst, ∀ number self,
    fwd.proxy ≠ some (.socks number self)

/-- Without a relay nothing is bound to an association. -/
theorem Unrelayed.bound {core : CoreCtx} (unrelayed : Unrelayed core) :
    Bound core := by
  intro fwd member number self relay
  exact absurd relay (unrelayed fwd member number self)

/-- A forward has no relay unless the association forwards. -/
theorem Bound.unrelayed
    {core : CoreCtx} (bound : Bound core)
    (shaking :
      ∀ assoc ∈ core.udpassoc, assoc.self.phase ≠ .forwarding) :
    Unrelayed core := by
  intro fwd member number self relay
  rcases bound fwd member number self relay with
    ⟨assoc, present, _, phase⟩
  exact shaking assoc present phase

/-! ## Where relays come from -/

theorem present_relayCreate
    {fwd : UdpForward} {assoc : Assoc} {addr : Text} {port : UInt16}
    {core last : CoreCtx} {number : Nat} {self : ProxySocks}
    (present : core.udpassoc = some assoc)
    (made :
      relayCreate fwd assoc addr port core =
        (some (.socks number self), last)) :
    Present core number := by
  simp only [relayCreate] at made
  split at made
  · cases made
  · next fine =>
      have parts := (Prod.mk.inj made).1
      rcases Option.map_eq_some_iff.mp parts with ⟨_, _, same⟩
      cases same
      refine ⟨assoc, present, rfl, ?_⟩
      by_contra shaking
      exact fine (.inl shaking)

theorem directUdpCreate_proxy
    {fwd : UdpForward} {addr : Text} {port : UInt16}
    {core last : CoreCtx} {number : Nat} {self : ProxySocks} :
    directUdpCreate fwd addr port core ≠
      (some (.socks number self), last) := by
  intro made
  simp only [directUdpCreate] at made
  split at made
  · cases made
  · split at made
    · cases made
    · cases made

/-- A new flow gets the relay of the present association. -/
theorem present_udpRoute
    {inet : Inet} {fwd : UdpForward} {core last : CoreCtx}
    {number : Nat} {self : ProxySocks}
    (routed :
      udpRoute inet fwd core = .ok (some (.socks number self), last)) :
    Present core number := by
  simp only [udpRoute] at routed
  split at routed
  · split at routed
    · have parts := (Prod.mk.inj (Except.ok.inj routed)).1
      split at parts
      · cases parts
      · cases parts
    · exact absurd (Except.ok.inj routed) directUdpCreate_proxy
  · split at routed
    · exact absurd (Except.ok.inj routed) directUdpCreate_proxy
    · split at routed
      · exact absurd (Except.ok.inj routed) directUdpCreate_proxy
      · split at routed
        · split at routed
          · cases routed
          · next assoc present =>
              exact present_relayCreate present (Except.ok.inj routed)
        · exact absurd (Except.ok.inj routed) directUdpCreate_proxy
        · cases routed

/-- So does a pending flow. -/
theorem present_pendingProxy
    {inet : Inet} {fwd : UdpForward} {core last : CoreCtx}
    {number : Nat} {self : ProxySocks}
    (made :
      pendingProxy inet fwd core =
        .ok (some (.socks number self), last)) :
    Present core number := by
  simp only [pendingProxy] at made
  split at made
  · exact absurd (Except.ok.inj made) directUdpCreate_proxy
  · split at made
    · cases made
    · next assoc present =>
        exact present_relayCreate present (Except.ok.inj made)

theorem tied_settlePending
    {inet : Inet} {fwd : UdpForward} {core next : CoreCtx}
    {left : Option UdpForward}
    (settled : settlePending inet fwd core = .ok (left, next)) :
    ∀ kept ∈ left, Tied core kept := by
  simp only [settlePending] at settled
  split at settled
  · cases settled
  · cases settled
    intro kept member
    cases member
  · next proxy mid made =>
      have connected :
          Tied core { fwd with proxy := some proxy } := by
        intro number self relay
        cases relay
        exact present_pendingProxy made
      split at settled
      · have flow :
            ∀ kept ∈
                (udpProxyOutput proxy { fwd with proxy := some proxy }
                  mid).1,
              SameFlow { fwd with proxy := some proxy } kept :=
          fun _ member => sameFlow_udpProxyOutput member
        rw [Except.ok.inj settled] at flow
        intro kept member
        exact connected.same (flow kept member) rfl
      · cases settled
        rintro kept ⟨⟩
        exact connected

theorem tied_settle
    {inet : Inet} {fwds kept : List UdpForward} {core last : CoreCtx}
    (settled : settle inet fwds core = .ok (kept, last)) :
    ∀ fwd ∈ kept, fwd ∈ fwds ∨ Tied core fwd := by
  have fine :
      ∀ (core : CoreCtx) (fwd : UdpForward),
        Admits inet core.conf (fun _ _ => True) fwd :=
    fun _ _ => ⟨fun _ => trivial, fun _ => trivial⟩
  induction fwds generalizing kept core with
  | nil =>
      cases settled
      intro fwd member
      cases member
  | cons first rest induction =>
      simp only [settle] at settled
      split at settled
      · split at settled
        · cases settled
        · next others final inner =>
            cases settled
            intro fwd member
            rcases List.mem_cons.mp member with rfl | inside
            · exact .inl List.mem_cons_self
            · rcases induction inner fwd inside with old | tied
              · exact .inl (List.mem_cons_of_mem first old)
              · exact .inr tied
      · split at settled
        · cases settled
        · next left mid done =>
            have connects :=
              (settlePending_spec (fine core first) trivial done).1
            split at settled
            · cases settled
            · next others final inner =>
                cases settled
                intro fwd member
                rcases List.mem_append.mp member with inside | inside
                · exact .inr
                    (tied_settlePending done fwd (by simpa using inside))
                · rcases induction inner fwd inside with old | tied
                  · exact .inl (List.mem_cons_of_mem first old)
                  · exact .inr
                      (tied.same (SameFlow.refl fwd)
                        connects.undisturbed.udpassoc.symm)

/-! ## One event -/

theorem Bound.unready
    {core : CoreCtx} (bound : Bound core)
    (absent : core.udpassoc = none) :
    Unrelayed core := by
  refine bound.unrelayed ?_
  intro assoc present
  rw [absent] at present
  cases present

/-- Without a relay there is none among fewer forwards. -/
theorem Unrelayed.subset
    {before after : CoreCtx} (unrelayed : Unrelayed before)
    (fewer : ∀ fwd ∈ after.udplst, fwd ∈ before.udplst) :
    Unrelayed after :=
  fun fwd member => unrelayed fwd (fewer fwd member)

/-- An attempt begins when there is no association. -/
theorem bound_starts
    {core after : CoreCtx} (starts : Starts core after)
    (bound : Bound core) :
    Bound after := by
  cases starts with
  | stays =>
      exact bound
  | made absent unready zero client =>
      apply Unrelayed.bound
      exact (bound.unready absent).subset fun _ member => member
  | failed absent unready zero =>
      apply Unrelayed.bound
      exact (bound.unready absent).subset fun _ member => member

theorem bound_coreReassocTmr
    {core : CoreCtx} (bound : Bound core) :
    Bound (coreReassocTmr core) := by
  simp only [coreReassocTmr]
  split
  · exact bound
  · split
    · split
      · exact bound
      · exact bound_starts (starts_coreStartUdpAssoc _) bound
    · exact bound

theorem bound_coreTick
    {core : CoreCtx} (bound : Bound core) : Bound (coreTick core) :=
  bound_coreReassocTmr (bound.same rfl fun _ => flows_coreGcTmr)

theorem bound_coreUdpNew
    {inet : Inet} {addr : IpAddr} {port : UInt16} {core after : CoreCtx}
    (handled : coreUdpNew inet addr port core = .ok after)
    (bound : Bound core) :
    Bound after := by
  simp only [coreUdpNew] at handled
  split at handled
  · cases handled
    refine bound_starts (starts_coreStartUdpAssoc _) ?_
    intro fwd member
    rcases List.mem_cons.mp member with rfl | inside
    · intro number self relay
      cases relay
    · exact bound fwd inside
  · split at handled
    · cases handled
    · next last routed =>
        cases handled
        have undisturbed := (udpRoute_spec routed).1.undisturbed
        refine bound.same undisturbed.udpassoc ?_
        intro fwd member
        rw [undisturbed.udplst] at member
        exact ⟨fwd, member, SameFlow.refl fwd⟩
    · next proxy last routed =>
        cases handled
        have undisturbed := (udpRoute_spec routed).1.undisturbed
        intro fwd member
        rcases List.mem_cons.mp member with rfl | inside
        · intro number self relay
          cases relay
          rcases present_udpRoute routed with ⟨assoc, present, facts⟩
          exact ⟨assoc, undisturbed.udpassoc ▸ present, facts⟩
        · rw [undisturbed.udplst] at inside
          exact (bound fwd inside).same (SameFlow.refl fwd)
            undisturbed.udpassoc

theorem bound_onForward
    {run : UdpForward → CoreCtx → Option UdpForward × CoreCtx}
    (runs : ∀ fwd core, Runs Queries fwd core (run fwd core))
    (number : Nat) {core : CoreCtx} (bound : Bound core) :
    Bound (onForward number run core) := by
  rcases onForward_works runs number core with
    ⟨mid, kept, works, same, flows⟩
  rw [same]
  exact bound.same works.undisturbed.udpassoc flows

/-- The association which succeeds is the one the relays belong to. -/
theorem bound_assocSucceeds
    {inet : Inet} {core after : CoreCtx}
    (handled : assocSucceeds inet core = .ok after)
    (bound : Bound core) :
    Bound after := by
  rcases assocSucceeds_cases handled with
    ⟨assoc, events, kept, last, present, settled, rfl⟩
  have kept := (aside_settle settled).udpassoc
  have ready : ∀ number, Present core number →
      Present
        (becomesReady
          ⟨assoc.number, { assoc.self with events := events }⟩ core)
        number := by
    rintro number ⟨found, inside, same, phase⟩
    rw [present] at inside
    cases inside
    exact ⟨_, rfl, same, phase⟩
  intro fwd member number self relay
  have before :
      Present
        (becomesReady
          ⟨assoc.number, { assoc.self with events := events }⟩ core)
        number := by
    rcases tied_settle settled fwd member with old | tied
    · exact ready number (bound fwd old number self relay)
    · exact tied number self relay
  rcases before with ⟨found, inside, facts⟩
  exact ⟨found, kept ▸ inside, facts⟩

/-- The event tells that an established association is lost. -/
def losesAssoc (core : CoreCtx) : CoreEvent → Bool
  | .assocEvent events _ =>
      core.udpassoc.any (fun assoc => assoc.self.phase == .forwarding) &&
        events.meets (epollin ||| epollerr ||| epollhup)
  | _ => false

theorem bound_assocEpollEvent
    {inet : Inet} {events : EventMask} {handshake : HandshakeAnswers}
    {core after : CoreCtx} (holds : Consistent core)
    (calm :
      losesAssoc core (.assocEvent events handshake) = true →
        Unrelayed core)
    (handled : assocEpollEvent inet events handshake core = .ok after)
    (bound : Bound core) :
    Bound after := by
  cases present : core.udpassoc with
  | none =>
      simp only [assocEpollEvent, present] at handled
      cases handled
  | some assoc =>
      by_cases forwarding : assoc.self.phase = .forwarding
      · rw [assocEpollEvent_forwarding inet events handshake present
          forwarding, udpAssocIoEvent] at handled
        split at handled
        · next mask =>
            have associated : core.udpassoc.isSome = true := by
              rw [present]
              rfl
            rw [assocLost_eq associated] at handled
            cases handled
            apply Unrelayed.bound
            refine Unrelayed.subset (calm ?_) fun _ member =>
              List.mem_of_mem_filter member
            simp [losesAssoc, present, forwarding, mask]
        · exact bound_assocSucceeds handled bound
      · have unrelayed : Unrelayed core := by
          refine bound.unrelayed ?_
          intro other found
          rw [present] at found
          cases found
          exact forwarding
        have reports := reports_assocEpollEvent holds handled
        cases reports with
        | shakes _ client unready =>
            apply Unrelayed.bound
            exact unrelayed.subset fun _ member => member
        | loses _ =>
            apply Unrelayed.bound
            exact unrelayed.subset fun _ member =>
              List.mem_of_mem_filter member
        | succeeds through _ =>
            exact absurd (through assoc present) forwarding

/-- When an established association is lost, no flow has a relay. -/
def Calm (core : CoreCtx) (turn : CoreTurn) : Prop :=
  losesAssoc core turn.event = true → Unrelayed core

theorem bound_coreStep
    {inet : Inet} {core after : CoreCtx} {turn : CoreTurn}
    (holds : Consistent core) (calm : Calm core turn)
    (handled : coreStep inet core turn = .ok after)
    (bound : Bound core) :
    Bound after := by
  have prepared : Bound (core.prepare turn) := bound
  rcases turn with ⟨event, answers⟩
  cases event with
  | newTcp addr port =>
      cases handled
      have undisturbed :=
        (connects_coreTcpNew inet addr port
          (core.prepare ⟨.newTcp addr port, answers⟩)).undisturbed
      refine prepared.same undisturbed.udpassoc ?_
      intro fwd member
      rw [undisturbed.udplst] at member
      exact ⟨fwd, member, SameFlow.refl fwd⟩
  | newUdp addr port =>
      exact bound_coreUdpNew handled prepared
  | datagram number chain =>
      cases handled
      exact bound_onForward (runs_udpLwipReceived queries_query chain)
        number prepared
  | proxyEvent number events incoming =>
      cases handled
      exact bound_onForward
        (runs_forwardIoEvent queries_query events incoming) number
        prepared
  | assocEvent events handshake =>
      have ready :
          Consistent
            (core.prepare ⟨.assocEvent events handshake, answers⟩) :=
        (aside_rest core answers core.nextForward).consistent holds
      exact bound_assocEpollEvent ready calm handled prepared
  | tick =>
      cases handled
      exact bound_coreTick prepared

/-! ## Runs -/

/-- The runs in which no relay outlives its association. -/
def calmSystem (inet : Inet) : System Fault CoreCtx CoreTurn :=
  (socksSystem inet).restrict (fun _ => True) Calm

theorem bound_of_reachable
    {inet : Inet} {core : CoreCtx}
    (reachable : (calmSystem inet).Reachable core) :
    Consistent core ∧ Bound core := by
  apply reachable.invariant
  · rintro source ⟨⟨⟨conf, rfl⟩, socks⟩, _⟩
    refine ⟨consistent_coreInit socks, ?_⟩
    intro fwd member
    cases member
  · rintro source turn target ⟨holds, bound⟩ ⟨_, calm⟩ handled
    exact
      ⟨consistent_coreStep holds handled,
        bound_coreStep holds calm handled bound⟩

/-- A relay which outlives its association is bound to none. -/
theorem calm_of_bound
    {inet : Inet} {core after : CoreCtx} {turn : CoreTurn}
    (handled : coreStep inet core turn = .ok after)
    (bound : Bound after) :
    Calm core turn := by
  intro loses fwd member number self relay
  rcases turn with ⟨event, answers⟩
  cases event with
  | assocEvent events handshake =>
      simp only [losesAssoc, Bool.and_eq_true, Option.any_eq_true,
        beq_iff_eq] at loses
      rcases loses with ⟨⟨assoc, present, forwarding⟩, mask⟩
      have ready :
          (core.prepare
            ⟨.assocEvent events handshake, answers⟩).udpassoc =
              some assoc :=
        present
      have associated :
          (core.prepare
            ⟨.assocEvent events handshake, answers⟩).udpassoc.isSome =
              true :=
        Option.isSome_of_mem ready
      simp only [coreStep] at handled
      rw [assocEpollEvent_forwarding inet events handshake ready
        forwarding, udpAssocIoEvent, if_pos mask, assocLost_eq associated]
        at handled
      cases handled
      have kept : fwd ∈ (lost (core.prepare
          ⟨.assocEvent events handshake, answers⟩)).udplst :=
        List.mem_filter.mpr ⟨member, by rw [relay]; rfl⟩
      rcases bound fwd kept number self relay with ⟨_, impossible, _⟩
      cases impossible
  | _ =>
      cases loses

/--
In the runs in which no flow has a relay when an established association is
lost, every relay belongs to the present association.  An event which breaks
the condition leaves a flow with a relay of no association.
-/
theorem relays_of_present_association
    {inet : Inet} {core : CoreCtx}
    (reachable : (calmSystem inet).Reachable core) :
    Bound core ∧
      ∀ turn after, coreStep inet core turn = .ok after →
        (Bound after ↔ Calm core turn) := by
  rcases bound_of_reachable reachable with ⟨holds, bound⟩
  refine ⟨bound, ?_⟩
  intro turn after handled
  constructor
  · exact calm_of_bound handled
  · intro calm
    exact bound_coreStep holds calm handled bound

/-- The proxy object is a socket to a relay. -/
def isRelay : Option UdpProxy → Bool
  | some (.socks _ _) => true
  | _ => false

theorem unrelayed_iff {core : CoreCtx} :
    Unrelayed core ↔ ∀ fwd ∈ core.udplst, isRelay fwd.proxy = false := by
  constructor
  · intro unrelayed fwd member
    cases proxy : fwd.proxy with
    | none => rfl
    | some held =>
        cases held with
        | socks number self =>
            exact absurd proxy (unrelayed fwd member number self)
        | _ => rfl
  · intro unrelayed fwd member number self relay
    have plain := unrelayed fwd member
    rw [relay] at plain
    cases plain

instance (core : CoreCtx) : Decidable (Unrelayed core) :=
  decidable_of_iff _ unrelayed_iff.symm

instance (inet : Inet) (core : CoreCtx) (turn : CoreTurn) :
    Decidable ((socksSystem inet).enabled core turn) :=
  inferInstanceAs (Decidable (coreEnabled core turn ∧ True))

instance (inet : Inet) (core : CoreCtx) (turn : CoreTurn) :
    Decidable ((calmSystem inet).enabled core turn) :=
  inferInstanceAs
    (Decidable
      ((coreEnabled core turn ∧ True) ∧
        (losesAssoc core turn.event = true → Unrelayed core)))

/-- The association is made, and the flows which waited get a relay. -/
def establishes : List CoreTurn :=
  [ sampleAssoc epollout [],
    sampleAssoc epollin [5, 0],
    sampleAssoc epollout [],
    sampleAssoc epollin [5, 0, 0, 1, 10, 0, 0, 1, 4, 0],
    sampleAssoc epollout [] ]

/-- The number of the relay of each forward, and that of the association. -/
def relays (core : CoreCtx) : List (Option Nat) × Option Nat :=
  (core.udplst.map fun fwd =>
      match fwd.proxy with
      | some (.socks number _) => some number
      | _ => none,
    core.udpassoc.map Assoc.number)

/--
The flow of the first association is gone before it is lost; another flow
waits for the second one.
-/
theorem relays_of_present_association_renewed :
    ∃ core, relays core = ([some 1], some 1) ∧ Bound core := by
  have passes :
      ((calmSystem sampleInet).replay (coreInit sampleConf)
          ([sampleTurn (.newUdp sampleAddr 9)] ++ establishes ++
            [ sampleTurn (.proxyEvent 0 epollerr []),
              sampleAssoc epollin [],
              sampleTurn (.newUdp sampleAddr 9),
              sampleTurn .tick,
              sampleTurn .tick ] ++
            establishes)).map
          (fun core => decide (relays core = ([some 1], some 1))) =
        some true := by
    decide +kernel
  have first : (calmSystem sampleInet).initial (coreInit sampleConf) :=
    ⟨⟨⟨sampleConf, rfl⟩, rfl⟩, trivial⟩
  rcases System.Reachable.exists_replay (.start first) passes with
    ⟨core, reachable, held⟩
  exact
    ⟨core, of_decide_eq_true held,
      (relays_of_present_association reachable).1⟩

/-- The association is lost while a flow has a relay. -/
theorem relay_outlives_association :
    ¬ ∀ inet core, (socksSystem inet).Reachable core → Bound core := by
  intro claimed
  have passes :
      ((socksSystem sampleInet).replay (coreInit sampleConf)
          ([sampleTurn (.newUdp sampleAddr 9)] ++ establishes ++
            [ sampleAssoc epollin [],
              sampleTurn (.datagram 0 (.pbufAlloc [7])) ])).map
          (fun core =>
            decide (core.udpassoc = none ∧ ¬ Unrelayed core)) =
        some true := by
    decide +kernel
  have first : (socksSystem sampleInet).initial (coreInit sampleConf) :=
    ⟨⟨sampleConf, rfl⟩, rfl⟩
  rcases System.Reachable.exists_replay (.start first) passes with
    ⟨core, reachable, held⟩
  rcases of_decide_eq_true held with ⟨absent, relayed⟩
  exact relayed ((claimed sampleInet core reachable).unready absent)

end Nsproxy.Core.Relay
