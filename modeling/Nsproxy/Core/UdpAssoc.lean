import Mathlib.Tactic.Common
import Nsproxy.Lib.History
import Nsproxy.Core.Routing
import Nsproxy.Core.UdpFrames

/-!
# The state machine of the UDP association

Four variables of `struct corectx` describe the association with the SOCKS5
server: the object, whether it is ready, the attempts since the last success
and the countdown before the next one.  They are updated from five places.

`Consistent` is their joint invariant.  The countdown is carried by `Owed`:
what a failure demanded is paid by the ticks since then and by the countdown
which is left.

The number of attempts is a 32-bit counter.  As long as it has not wrapped
around, the attempts after a failure are spaced as the back-off demands; when
it wraps, the pause shrinks to a single tick.
-/

namespace Nsproxy.Core.UdpAssoc

open Nsproxy.Conf
open Nsproxy.Lib.History
open Nsproxy.Lib.Transition
open Nsproxy.Lwip.Opts
open Nsproxy.Skutils
open Nsproxy.Socks
open Nsproxy.Core.UdpFlows
open Nsproxy.Core.UdpFrames
open Nsproxy.Core.Routing

/-! ## What a history tells -/

/-- One more action, counting the attempts since the last success. -/
def countAttempt (attempts : Nat) : CoreAction → Nat
  | .assocCreate _ => attempts + 1
  | .assocReady => 0
  | _ => attempts

/-- The attempts since the last success. -/
def attempts (trace : List CoreAction) : Nat :=
  trace.foldl countAttempt 0

def isTick : CoreAction → Bool
  | .reassocTick => true
  | _ => false

/-- The calls of `core_reassoc_tmr`. -/
def ticks (trace : List CoreAction) : Nat := trace.countP isTick

def isMade : CoreAction → Bool
  | .assocCreate made => made
  | _ => false

/-- The association objects which were made. -/
def created (trace : List CoreAction) : Nat := trace.countP isMade

def isPut : CoreAction → Bool
  | .assocPut => true
  | _ => false

/-- The association objects which were released. -/
def released (trace : List CoreAction) : Nat := trace.countP isPut

/-- The pause which a failure after so many attempts demands. -/
def pause (attempts : Nat) : Nat := 2 ^ min attempts 5

/-- A new attempt comes only after the pause which each failure demands. -/
def Spaced (before : List CoreAction) (action : CoreAction) : Prop :=
  match action with
  | .assocCreate _ =>
      ∀ earlier later,
        before = earlier ++ .assocFailed :: later →
        pause (attempts earlier) ≤ ticks later
  | _ => True

/-- An action which says nothing of the association. -/
def isConnect : CoreAction → Bool
  | .connect _ _ _ => true
  | _ => false

theorem attempts_append_connects
    (trace : List CoreAction) {entries : List CoreAction}
    (plain : ∀ entry ∈ entries, isConnect entry = true) :
    attempts (trace ++ entries) = attempts trace := by
  induction entries generalizing trace with
  | nil =>
      rw [List.append_nil]
  | cons entry rest induction =>
      have first := plain entry List.mem_cons_self
      have others :=
        induction (trace ++ [entry]) fun other member =>
          plain other (List.mem_cons_of_mem entry member)
      rw [List.append_assoc, List.singleton_append] at others
      rw [others, attempts, attempts, List.foldl_append]
      cases entry with
      | connect purpose via conf => rfl
      | _ => cases first

theorem countP_connects
    {test : CoreAction → Bool}
    (blind : ∀ entry, isConnect entry = true → test entry = false)
    {entries : List CoreAction}
    (plain : ∀ entry ∈ entries, isConnect entry = true) :
    entries.countP test = 0 := by
  rw [List.countP_eq_zero]
  intro entry member
  simp [blind entry (plain entry member)]

theorem isMade_connect
    (entry : CoreAction) (plain : isConnect entry = true) :
    isMade entry = false := by
  cases entry with
  | connect purpose via conf => rfl
  | _ => cases plain

theorem isPut_connect
    (entry : CoreAction) (plain : isConnect entry = true) :
    isPut entry = false := by
  cases entry with
  | connect purpose via conf => rfl
  | _ => cases plain

theorem free_connect
    {entry : CoreAction} (plain : isConnect entry = true) :
    Free Spaced entry := by
  intro before
  cases entry with
  | connect purpose via conf => trivial
  | _ => cases plain

/-! ## The invariants -/

/-- The client of the association, between two events. -/
structure Client (proxy : ProxySocks) : Prop where
  type : proxy.type = .udpAssociate
  unfailed : proxy.phase ≠ .failed
  relay : proxy.phase = .forwarding → proxy.relay ≠ none

/-- What the variables of the association say, between two events. -/
structure Consistent (core : CoreCtx) : Prop where
  socks : core.conf.proxytype = .socks5
  client : ∀ assoc ∈ core.udpassoc, Client assoc.self
  ready :
    core.assocready = true →
      ∃ assoc ∈ core.udpassoc, assoc.self.phase = .forwarding
  settled :
    core.assocready = true → ∀ fwd ∈ core.udplst, fwd.proxy ≠ none
  idle : ∀ assoc ∈ core.udpassoc, core.assoccd = 0
  bounded : core.assoccd ≤ 32
  single :
    created core.trace =
      released core.trace + if core.udpassoc.isSome then 1 else 0
  counted : core.assocretries.toNat = attempts core.trace % 2 ^ 32

/--
What each failure demanded is paid by the ticks since then and by the
countdown which is left.
-/
def Owed (trace : List CoreAction) (assoccd : Nat) : Prop :=
  ∀ earlier later,
    trace = earlier ++ .assocFailed :: later →
    pause (attempts earlier) ≤ ticks later + assoccd

/-- The timing of the attempts. -/
structure Timely (core : CoreCtx) : Prop where
  owed : Owed core.trace core.assoccd
  spaced : Throughout Spaced core.trace

/-! ## Longer histories -/

/-- A failure in a history which grew by other actions lies in the old part. -/
theorem split_of_unfailed
    {trace entries earlier later : List CoreAction}
    (unfailed : .assocFailed ∉ entries)
    (split : trace ++ entries = earlier ++ .assocFailed :: later) :
    ∃ front, trace = earlier ++ .assocFailed :: front ∧
      later = front ++ entries := by
  rcases List.append_eq_append_iff.mp split with
    ⟨middle, whole, rest⟩ | ⟨middle, whole, rest⟩
  · refine absurd ?_ unfailed
    rw [rest]
    exact List.mem_append_right _ List.mem_cons_self
  · cases middle with
    | nil =>
        refine absurd ?_ unfailed
        rw [List.nil_append] at rest
        rw [← rest]
        exact List.mem_cons_self
    | cons first front =>
        injection rest with same back
        subst same
        exact ⟨front, whole, back⟩

/-- Ticks pay for the countdown which they take away. -/
theorem Owed.append
    {trace entries : List CoreAction} {before after : Nat}
    (owed : Owed trace before) (unfailed : .assocFailed ∉ entries)
    (paid : before ≤ ticks entries + after) :
    Owed (trace ++ entries) after := by
  intro earlier later split
  rcases split_of_unfailed unfailed split with ⟨front, old, rfl⟩
  have due := owed earlier front old
  rw [ticks, List.countP_append]
  rw [ticks] at due paid
  omega

/-- A failure sets the countdown to what it demands. -/
theorem Owed.failed
    {trace : List CoreAction} {after : Nat}
    (owed : Owed trace 0) (demanded : pause (attempts trace) ≤ after) :
    Owed (trace ++ [.assocFailed]) after := by
  intro earlier later split
  rcases List.eq_nil_or_concat later with rfl | ⟨front, last, rfl⟩
  · have parts := List.append_inj' split rfl
    rw [← parts.1]
    exact Nat.le_add_left_of_le demanded
  · have split' :
        trace ++ [.assocFailed] =
          (earlier ++ .assocFailed :: front) ++ [last] := by
      simpa using split
    have parts := List.append_inj' split' rfl
    have due := owed earlier front parts.1
    rw [ticks, List.concat_eq_append, List.countP_append]
    rw [ticks] at due
    omega

/-- Without a countdown an attempt is on time. -/
theorem Owed.spaced
    {trace : List CoreAction} (owed : Owed trace 0) (made : Bool) :
    Spaced trace (.assocCreate made) := by
  intro earlier later split
  exact owed earlier later split

/-- Two actions are appended one after the other. -/
theorem concat_pair (trace : List CoreAction) (first second : CoreAction) :
    trace ++ [first, second] = (trace ++ [first]) ++ [second] := by
  rw [List.append_assoc, List.singleton_append]

theorem attempts_concat (trace : List CoreAction) (action : CoreAction) :
    attempts (trace ++ [action]) = countAttempt (attempts trace) action := by
  rw [attempts, List.foldl_append]
  rfl

/-! ## Events which leave the association alone -/

/--
The association is untouched, no flow became pending, and nothing was
recorded but connections.
-/
structure Aside (before after : CoreCtx) : Prop where
  udpassoc : after.udpassoc = before.udpassoc
  assocretries : after.assocretries = before.assocretries
  assoccd : after.assoccd = before.assoccd
  assocready : after.assocready = before.assocready
  proxytype : after.conf.proxytype = before.conf.proxytype
  pending :
    (∀ fwd ∈ before.udplst, fwd.proxy ≠ none) →
      ∀ fwd ∈ after.udplst, fwd.proxy ≠ none
  trace :
    ∃ entries,
      after.trace = before.trace ++ entries ∧
        ∀ entry ∈ entries, isConnect entry = true

theorem Aside.consistent
    {before after : CoreCtx} (aside : Aside before after)
    (holds : Consistent before) :
    Consistent after := by
  rcases aside.trace with ⟨entries, trace, plain⟩
  constructor
  · rw [aside.proxytype]
    exact holds.socks
  · rw [aside.udpassoc]
    exact holds.client
  · rw [aside.assocready, aside.udpassoc]
    exact holds.ready
  · rw [aside.assocready]
    intro ready
    exact aside.pending (holds.settled ready)
  · rw [aside.udpassoc, aside.assoccd]
    exact holds.idle
  · rw [aside.assoccd]
    exact holds.bounded
  · rw [trace, aside.udpassoc, created, released, List.countP_append,
      List.countP_append, countP_connects isMade_connect plain,
      countP_connects isPut_connect plain]
    exact holds.single
  · rw [trace, aside.assocretries, attempts_append_connects _ plain]
    exact holds.counted

theorem Aside.timely
    {before after : CoreCtx} (aside : Aside before after)
    (holds : Timely before) :
    Timely after := by
  rcases aside.trace with ⟨entries, trace, plain⟩
  constructor
  · rw [trace, aside.assoccd]
    refine holds.owed.append ?_ (Nat.le_add_left _ _)
    intro failed
    cases plain _ failed
  · rw [trace]
    exact throughout_append_free holds.spaced fun entry member =>
      free_connect (plain entry member)

theorem Aside.trans
    {first second third : CoreCtx}
    (before : Aside first second) (after : Aside second third) :
    Aside first third := by
  rcases before.trace with ⟨front, early, frontPlain⟩
  rcases after.trace with ⟨back, late, backPlain⟩
  constructor
  · exact after.udpassoc.trans before.udpassoc
  · exact after.assocretries.trans before.assocretries
  · exact after.assoccd.trans before.assoccd
  · exact after.assocready.trans before.assocready
  · exact after.proxytype.trans before.proxytype
  · intro settled
    exact after.pending (before.pending settled)
  · refine ⟨front ++ back, ?_, ?_⟩
    · rw [late, early, List.append_assoc]
    · intro entry member
      rcases List.mem_append.mp member with inside | inside
      · exact frontPlain entry inside
      · exact backPlain entry inside

theorem aside_of_works
    {allowed : Nspconf → Purpose → Via → Prop} {before after : CoreCtx}
    (works : Works allowed before after) :
    Aside before after := by
  have undisturbed := works.undisturbed
  constructor
  · exact undisturbed.udpassoc
  · exact undisturbed.assocretries
  · exact undisturbed.assoccd
  · exact undisturbed.assocready
  · exact SameSettings.proxytype undisturbed.settings
  · rw [undisturbed.udplst]
    exact id
  · rcases works.connected with ⟨entries, trace, fine⟩
    refine ⟨entries, trace, ?_⟩
    intro entry member
    rcases fine entry member with ⟨_, _, _, _, _, rfl⟩
    rfl

theorem aside_of_connects
    {inet : Inet} {before after : CoreCtx}
    (connects : Connects (Asked inet before.conf) before after) :
    Aside before after :=
  aside_of_works (works_of_connects connects)

/-- A list of forwards in which no new one is pending. -/
theorem aside_udplst
    {core : CoreCtx} {kept : List UdpForward}
    (flows :
      ∀ fwd ∈ kept,
        (∃ old ∈ core.udplst, fwd.proxy = old.proxy) ∨
          fwd.proxy ≠ none) :
    Aside core { core with udplst := kept } := by
  refine ⟨rfl, rfl, rfl, rfl, rfl, ?_, [], (List.append_nil _).symm, ?_⟩
  · intro settled fwd member
    rcases flows fwd member with ⟨old, inside, same⟩ | present
    · rw [same]
      exact settled old inside
    · exact present
  · intro entry member
    cases member

/-- The part of the state which the association does not read. -/
theorem aside_rest
    (core : CoreCtx) (answers : KernelAnswers) (nextForward : Nat) :
    Aside core
      { core with answers := answers, nextForward := nextForward } := by
  refine
    ⟨rfl, rfl, rfl, rfl, rfl, id, [], (List.append_nil _).symm, ?_⟩
  intro entry member
  cases member

theorem aside_onForward
    {run : UdpForward → CoreCtx → Option UdpForward × CoreCtx}
    (runs : ∀ fwd core, Runs Queries fwd core (run fwd core))
    (number : Nat) (core : CoreCtx) :
    Aside core (onForward number run core) := by
  rcases onForward_works runs number core with
    ⟨mid, kept, works, same, flows⟩
  rw [same]
  apply (aside_of_works works).trans
  apply aside_udplst
  intro fwd member
  rcases flows fwd member with ⟨old, inside, flow⟩
  refine .inl ⟨old, ?_, flow.proxy⟩
  rw [works.undisturbed.udplst]
  exact inside

theorem aside_coreGcTmr (core : CoreCtx) : Aside core (coreGcTmr core) := by
  apply aside_udplst
  intro fwd member
  rcases flows_coreGcTmr member with ⟨old, inside, flow⟩
  exact .inl ⟨old, inside, flow.proxy⟩

/-- A new flow which does not wait. -/
theorem aside_immediate
    {inet : Inet} {addr : IpAddr} {port : UInt16} {core after : CoreCtx}
    (immediate : leavesPending core addr = false)
    (handled : coreUdpNew inet addr port core = .ok after) :
    Aside core after := by
  have numbered := aside_rest core core.answers (core.nextForward + 1)
  simp only [coreUdpNew, immediate, Bool.false_eq_true, if_false]
    at handled
  split at handled
  · cases handled
  · next last routed =>
      cases handled
      rcases udpRoute_spec routed with ⟨connects, _⟩
      exact numbered.trans (aside_of_connects connects)
  · next proxy last routed =>
      cases handled
      rcases udpRoute_spec routed with ⟨connects, _⟩
      apply (numbered.trans (aside_of_connects connects)).trans
      apply aside_udplst
      intro fwd member
      rcases List.mem_cons.mp member with rfl | inside
      · exact .inr (Option.some_ne_none proxy)
      · exact .inl ⟨fwd, inside, rfl⟩

/-! ## Events of the association -/

theorem backoff_le (retries : UInt32) : backoff retries ≤ 32 :=
  Nat.pow_le_pow_right (Nat.succ_pos 1) (Nat.min_le_right _ 5)

/-- The countdown is the pause as long as the counter has not wrapped. -/
theorem backoff_eq_pause
    {retries : UInt32} {count : Nat}
    (counted : retries.toNat = count % 2 ^ 32) (few : count < 2 ^ 32) :
    backoff retries = pause count := by
  rw [backoff, counted, Nat.mod_eq_of_lt few]
  rfl

theorem client_socksAssocCreate
    {connected accepted : Bool} {self : ProxySocks}
    (made : socksAssocCreate connected accepted = some self) :
    Client self := by
  simp only [socksAssocCreate, socksCreate] at made
  split at made
  · cases made
  · split at made
    · cases made
      exact ⟨rfl, by simp, by simp⟩
    · cases made

/-- What `core_start_udp_assoc` does. -/
inductive Starts (core : CoreCtx) : CoreCtx → Prop where
  | stays : Starts core core
  | made
      (absent : core.udpassoc = none)
      (unready : core.assocready = false)
      (zero : core.assoccd = 0)
      (client : Client self) :
      Starts core
        { core with
          answers := answers
          nextAssoc := nextAssoc
          assocretries := core.assocretries + 1
          udpassoc := some ⟨number, self⟩
          trace := core.trace ++ [.assocCreate true] }
  | failed
      (absent : core.udpassoc = none)
      (unready : core.assocready = false)
      (zero : core.assoccd = 0) :
      Starts core
        { core with
          answers := answers
          nextAssoc := nextAssoc
          assocretries := core.assocretries + 1
          assoccd := backoff (core.assocretries + 1)
          trace := core.trace ++ [.assocCreate false, .assocFailed] }

theorem starts_coreStartUdpAssoc (core : CoreCtx) :
    Starts core (coreStartUdpAssoc core) := by
  simp only [coreStartUdpAssoc]
  split
  · exact .stays
  · next idle =>
      simp only [Bool.or_eq_true, not_or, Bool.not_eq_true,
        Option.isSome_eq_false_iff, Option.isNone_iff_eq_none] at idle
      split
      · exact .stays
      · next zero =>
          have zero : core.assoccd = 0 := Nat.eq_zero_of_not_pos zero
          split
          · next self made =>
              exact .made idle.1.1 idle.1.2 zero
                (client_socksAssocCreate made)
          · exact .failed idle.1.1 idle.1.2 zero

theorem toNat_succ_mod {retries : UInt32} {count : Nat}
    (counted : retries.toNat = count % 2 ^ 32) :
    (retries + 1).toNat = (count + 1) % 2 ^ 32 := by
  rw [UInt32.toNat_add, counted]
  simp

theorem Starts.consistent
    {core after : CoreCtx} (starts : Starts core after)
    (holds : Consistent core) :
    Consistent after := by
  cases starts with
  | stays =>
      exact holds
  | made absent unready zero client =>
      have single := holds.single
      rw [absent] at single
      constructor
      · exact holds.socks
      · rintro assoc ⟨⟩
        exact client
      · intro ready
        rw [unready] at ready
        cases ready
      · exact holds.settled
      · intro assoc present
        exact zero
      · exact holds.bounded
      · rw [created, released, List.countP_append, List.countP_append]
        rw [created, released] at single
        rw [single]
        rfl
      · rw [attempts_concat]
        exact toNat_succ_mod holds.counted
  | failed absent unready zero =>
      constructor
      · exact holds.socks
      · intro assoc present
        rw [absent] at present
        cases present
      · intro ready
        rw [unready] at ready
        cases ready
      · exact holds.settled
      · intro assoc present
        rw [absent] at present
        cases present
      · exact backoff_le _
      · have single := holds.single
        rw [created, released] at single ⊢
        rw [List.countP_append, List.countP_append, single]
        rfl
      · rw [concat_pair, attempts_concat, attempts_concat]
        exact toNat_succ_mod holds.counted

theorem Starts.timely
    {core after : CoreCtx} (starts : Starts core after)
    (holds : Consistent core) (timely : Timely core)
    (few : attempts core.trace + 1 < 2 ^ 32) :
    Timely after := by
  cases starts with
  | stays =>
      exact timely
  | made absent unready zero client =>
      have owed := timely.owed
      rw [zero] at owed
      constructor
      · rw [zero]
        exact owed.append (by simp) (Nat.zero_le _)
      · exact throughout_concat.mpr ⟨timely.spaced, owed.spaced true⟩
  | failed absent unready zero =>
      have owed := timely.owed
      rw [zero] at owed
      have counted := toNat_succ_mod holds.counted
      have unfailed :
          CoreAction.assocFailed ∉ [CoreAction.assocCreate false] := by
        simp
      have kept : Owed (core.trace ++ [.assocCreate false]) 0 :=
        owed.append unfailed (Nat.zero_le _)
      have demanded :
          pause (attempts (core.trace ++ [.assocCreate false])) ≤
            backoff (core.assocretries + 1) := by
        rw [attempts_concat, backoff_eq_pause counted few]
        exact Nat.le_refl _
      constructor
      · rw [concat_pair]
        exact kept.failed demanded
      · rw [concat_pair]
        refine throughout_concat.mpr ⟨?_, trivial⟩
        exact throughout_concat.mpr ⟨timely.spaced, owed.spaced false⟩

/-- A pending flow does not touch the association. -/
theorem Consistent.waits
    {core : CoreCtx} (holds : Consistent core)
    (unready : core.assocready = false) (fwd : UdpForward) :
    Consistent { core with udplst := fwd :: core.udplst } := by
  constructor
  · exact holds.socks
  · exact holds.client
  · exact holds.ready
  · intro ready
    rw [unready] at ready
    cases ready
  · exact holds.idle
  · exact holds.bounded
  · exact holds.single
  · exact holds.counted

/-- The call of `core_reassoc_tmr` is recorded. -/
theorem Consistent.ticked
    {core : CoreCtx} (holds : Consistent core) {assoccd : Nat}
    (less : assoccd ≤ core.assoccd) :
    Consistent
      { core with
        assoccd := assoccd
        trace := core.trace ++ [.reassocTick] } := by
  constructor
  · exact holds.socks
  · exact holds.client
  · exact holds.ready
  · exact holds.settled
  · intro assoc present
    exact Nat.eq_zero_of_le_zero (holds.idle assoc present ▸ less)
  · exact Nat.le_trans less holds.bounded
  · have single := holds.single
    rw [created, released] at single ⊢
    rw [List.countP_append, List.countP_append, single]
    rfl
  · rw [attempts_concat]
    exact holds.counted

theorem Timely.ticked
    {core : CoreCtx} (timely : Timely core) {assoccd : Nat}
    (less : core.assoccd ≤ 1 + assoccd) :
    Timely
      { core with
        assoccd := assoccd
        trace := core.trace ++ [.reassocTick] } := by
  constructor
  · exact timely.owed.append (by simp) less
  · exact throughout_concat.mpr ⟨timely.spaced, trivial⟩

theorem consistent_coreReassocTmr
    {core : CoreCtx} (holds : Consistent core) :
    Consistent (coreReassocTmr core) := by
  simp only [coreReassocTmr]
  split
  · exact holds.ticked (Nat.le_refl _)
  · split
    · split
      · exact holds.ticked (Nat.sub_le _ 1)
      · exact (starts_coreStartUdpAssoc _).consistent
          (holds.ticked (Nat.le_refl _))
    · exact holds.ticked (Nat.le_refl _)

theorem timely_coreReassocTmr
    {core : CoreCtx} (holds : Consistent core) (timely : Timely core)
    (few : attempts core.trace + 1 < 2 ^ 32) :
    Timely (coreReassocTmr core) := by
  have ticked : Timely (core.record [.reassocTick]) :=
    timely.ticked (Nat.le_add_left _ 1)
  simp only [coreReassocTmr]
  split
  · exact ticked
  · split
    · split
      · exact timely.ticked (by omega)
      · refine (starts_coreStartUdpAssoc _).timely
          (holds.ticked (Nat.le_refl _)) ticked ?_
        rw [CoreCtx.record, attempts_concat]
        exact few
    · exact ticked

/-- The state after an association which is no more. -/
def lost (core : CoreCtx) : CoreCtx :=
  { core with
    udpassoc := none
    assocready := false
    assoccd := backoff core.assocretries
    udplst := core.udplst.filter fun fwd => fwd.proxy.isSome
    trace := core.trace ++ [.assocPut] ++ [.assocFailed] }

theorem assocLost_eq
    {core : CoreCtx} (present : core.udpassoc.isSome = true) :
    assocLost core = .ok (lost core) := by
  rcases Option.isSome_iff_exists.mp present with ⟨assoc, found⟩
  simp [assocLost, found, lost, CoreCtx.record]

theorem consistent_lost
    {core : CoreCtx} (holds : Consistent core)
    (present : core.udpassoc.isSome = true) :
    Consistent (lost core) := by
  constructor
  · exact holds.socks
  · intro assoc impossible
    cases impossible
  · intro ready
    cases ready
  · intro ready
    cases ready
  · intro assoc impossible
    cases impossible
  · exact backoff_le _
  · have single := holds.single
    rw [if_pos present] at single
    rw [created, released] at single ⊢
    rw [lost, List.countP_append, List.countP_append,
      List.countP_append, List.countP_append, single]
    rfl
  · rw [lost, attempts_concat, attempts_concat]
    exact holds.counted

theorem timely_lost
    {core : CoreCtx} (holds : Consistent core) (timely : Timely core)
    (present : core.udpassoc.isSome = true)
    (few : attempts core.trace < 2 ^ 32) :
    Timely (lost core) := by
  rcases Option.isSome_iff_exists.mp present with ⟨assoc, found⟩
  have owed := timely.owed
  rw [holds.idle assoc found] at owed
  constructor
  · have kept : Owed (core.trace ++ [.assocPut]) 0 :=
      owed.append (by simp) (Nat.zero_le _)
    refine kept.failed ?_
    rw [attempts_concat]
    exact Nat.le_of_eq (backoff_eq_pause holds.counted few).symm
  · refine throughout_concat.mpr ⟨?_, trivial⟩
    exact throughout_concat.mpr ⟨timely.spaced, trivial⟩

/-- Once the loop over the pending flows is done, none is pending. -/
theorem aside_settle
    {inet : Inet} {fwds kept : List UdpForward} {ready last : CoreCtx}
    (settled : settle inet fwds ready = .ok (kept, last)) :
    Aside { ready with udplst := [] } { last with udplst := kept } := by
  have fine :
      ∀ fwd ∈ fwds, fwd.proxy = none →
        Admits inet ready.conf (fun _ _ => True) fwd := by
    intro fwd member pending
    exact ⟨fun _ => trivial, fun _ => trivial⟩
  rcases settle_spec fine trivial settled with ⟨connects, forwards⟩
  have works : Works (fun _ _ _ => True) ready last :=
    works_of_connects connects
  have aside := aside_of_works works
  constructor
  · exact aside.udpassoc
  · exact aside.assocretries
  · exact aside.assoccd
  · exact aside.assocready
  · exact aside.proxytype
  · intro _ fwd member
    rcases forwards fwd member with ⟨_, present⟩ | ⟨proxy, present, _⟩
    · exact Option.isSome_iff_ne_none.mp present
    · rw [present]
      exact Option.some_ne_none proxy
  · exact aside.trace

/-- A success resets the counter. -/
theorem consistent_becomesReady
    {core : CoreCtx} {assoc : Assoc} (events : EventMask)
    (holds : Consistent core) (present : core.udpassoc = some assoc)
    (forwarding : assoc.self.phase = .forwarding) :
    Consistent
      { becomesReady
          ⟨assoc.number, { assoc.self with events := events }⟩ core with
        udplst := [] } := by
  have client := holds.client assoc present
  constructor
  · exact holds.socks
  · rintro other ⟨⟩
    exact ⟨client.type, client.unfailed, client.relay⟩
  · intro _
    exact ⟨_, rfl, forwarding⟩
  · intro _ fwd member
    cases member
  · intro other _
    exact holds.idle assoc present
  · exact holds.bounded
  · have single := holds.single
    rw [present] at single
    rw [created, released] at single ⊢
    rw [becomesReady, List.countP_append, List.countP_append, single]
    rfl
  · rw [becomesReady, attempts_concat]
    rfl

theorem consistent_assocSucceeds
    {inet : Inet} {core after : CoreCtx} (holds : Consistent core)
    (forwarding :
      ∀ assoc ∈ core.udpassoc, assoc.self.phase = .forwarding)
    (handled : assocSucceeds inet core = .ok after) :
    Consistent after := by
  rcases assocSucceeds_cases handled with
    ⟨assoc, events, kept, last, present, settled, rfl⟩
  exact (aside_settle settled).consistent
    (consistent_becomesReady events holds present
      (forwarding assoc present))

theorem timely_assocSucceeds
    {inet : Inet} {core after : CoreCtx} (timely : Timely core)
    (handled : assocSucceeds inet core = .ok after) :
    Timely after := by
  rcases assocSucceeds_cases handled with
    ⟨assoc, events, kept, last, _, settled, rfl⟩
  refine (aside_settle settled).timely ⟨?_, ?_⟩
  · exact timely.owed.append (by simp) (Nat.le_add_left _ _)
  · exact throughout_concat.mpr ⟨timely.spaced, trivial⟩

/-- What an event of the socket of the association comes to. -/
inductive Reports (inet : Inet) (core : CoreCtx) : CoreCtx → Prop where
  | shakes
      (present : core.udpassoc = some assoc)
      (client : Client self)
      (unready : core.assocready = false) :
      Reports inet core
        { core with udpassoc := some ⟨assoc.number, self⟩ }
  | loses
      (present : core.udpassoc.isSome = true) :
      Reports inet core (lost core)
  | succeeds
      (forwarding :
        ∀ assoc ∈ core.udpassoc, assoc.self.phase = .forwarding)
      (handled : assocSucceeds inet core = .ok after) :
      Reports inet core after

theorem toPhase_handshake
    {phase : SocksPhase} (unfailed : phase ≠ .failed)
    (shaking : phase ≠ .forwarding) :
    phase.toPhase = .handshake := by
  cases phase with
  | failed =>
      exact absurd rfl unfailed
  | forwarding =>
      exact absurd rfl shaking
  | _ => rfl

theorem reports_udpAssocIoEvent
    {inet : Inet} {events : EventMask} {core after : CoreCtx}
    {assoc : Assoc} (present : core.udpassoc = some assoc)
    (forwarding : assoc.self.phase = .forwarding)
    (handled : udpAssocIoEvent inet events core = .ok after) :
    Reports inet core after := by
  simp only [udpAssocIoEvent] at handled
  split at handled
  · have associated : core.udpassoc.isSome = true := by
      rw [present]
      rfl
    rw [assocLost_eq associated] at handled
    cases handled
    exact .loses associated
  · refine .succeeds ?_ handled
    intro other found
    rw [present] at found
    cases found
    exact forwarding

/-- After the handshake an event of the socket is reported as it is. -/
theorem assocEpollEvent_forwarding
    (inet : Inet) (events : EventMask) (handshake : HandshakeAnswers)
    {core : CoreCtx} {assoc : Assoc}
    (present : core.udpassoc = some assoc)
    (forwarding : assoc.self.phase = .forwarding) :
    assocEpollEvent inet events handshake core =
      udpAssocIoEvent inet events core := by
  have told :
      socksEpcbEvents core.conf inet handshake events assoc.self =
        .ok (assoc.self, some events) := by
    simp [socksEpcbEvents, forwarding]
  have same :
      { core with
        udpassoc := some { assoc with self := assoc.self } } =
        core := by
    cases core
    cases present
    rfl
  simp only [assocEpollEvent, present, told]
  rw [same]

theorem reports_assocEpollEvent
    {inet : Inet} {events : EventMask} {handshake : HandshakeAnswers}
    {core after : CoreCtx} (holds : Consistent core)
    (handled : assocEpollEvent inet events handshake core = .ok after) :
    Reports inet core after := by
  cases present : core.udpassoc with
  | none =>
      simp only [assocEpollEvent, present] at handled
      cases handled
  | some assoc =>
      have client := holds.client assoc present
      by_cases forwarding : assoc.self.phase = .forwarding
      · rw [assocEpollEvent_forwarding inet events handshake present
          forwarding] at handled
        exact reports_udpAssocIoEvent present forwarding handled
      · rcases advances_socksEpcbEvents core.conf inet handshake events
            (toPhase_handshake client.unfailed forwarding) with
          ⟨⟨self, told⟩, stepped, advances⟩
        have unready : core.assocready = false := by
          by_contra ready
          rcases holds.ready (by simpa using ready) with
            ⟨other, found, phase⟩
          rw [present] at found
          cases found
          exact forwarding phase
        simp only [assocEpollEvent, present, stepped] at handled
        cases advances with
        | shakes phase type =>
            cases handled
            refine .shakes present ⟨type.trans client.type, ?_, ?_⟩
              unready
            · intro failed
              rw [failed] at phase
              cases phase
            · intro through
              rw [through] at phase
              cases phase
        | forwards phase type relay =>
            cases handled
            refine .shakes present ⟨type.trans client.type, ?_, ?_⟩
              unready
            · rw [phase]
              exact SocksPhase.noConfusion
            · intro _
              exact relay client.type
        | fails phase type =>
            have mask :
                failedEvents.meets (epollin ||| epollerr ||| epollhup) =
                  true := by
              decide
            have associated :
                { core with
                  udpassoc := some { assoc with self := self }
                }.udpassoc.isSome = true :=
              rfl
            simp only [udpAssocIoEvent, if_pos mask] at handled
            rw [assocLost_eq associated] at handled
            cases handled
            refine .loses ?_
            rw [present]
            rfl

/-- The client of an association which is not ready may be replaced. -/
theorem Consistent.shakes
    {core : CoreCtx} (holds : Consistent core) {assoc : Assoc}
    (present : core.udpassoc = some assoc) {self : ProxySocks}
    (client : Client self) (unready : core.assocready = false) :
    Consistent
      { core with udpassoc := some ⟨assoc.number, self⟩ } := by
  constructor
  · exact holds.socks
  · rintro other ⟨⟩
    exact client
  · intro ready
    rw [unready] at ready
    cases ready
  · exact holds.settled
  · intro other _
    exact holds.idle assoc present
  · exact holds.bounded
  · have single := holds.single
    rw [present] at single
    exact single
  · exact holds.counted

/-- A failed client is released, whatever phase it is in. -/
theorem Reports.consistent
    {inet : Inet} {core after : CoreCtx} (reports : Reports inet core after)
    (holds : Consistent core) :
    Consistent after := by
  cases reports with
  | shakes present client unready =>
      exact holds.shakes present client unready
  | loses present =>
      exact consistent_lost holds present
  | succeeds forwarding handled =>
      exact consistent_assocSucceeds holds forwarding handled

theorem Reports.timely
    {inet : Inet} {core after : CoreCtx} (reports : Reports inet core after)
    (holds : Consistent core) (timely : Timely core)
    (few : attempts core.trace < 2 ^ 32) :
    Timely after := by
  cases reports with
  | shakes present client unready =>
      exact ⟨timely.owed, timely.spaced⟩
  | loses present =>
      exact timely_lost holds timely present few
  | succeeds forwarding handled =>
      exact timely_assocSucceeds timely handled

/-! ## Runs -/

/-- What an event comes to, for the association. -/
inductive Moves (inet : Inet) (core : CoreCtx) : CoreCtx → Prop where
  | aside
      (aside : Aside core after) :
      Moves inet core after
  | waits
      (unready : core.assocready = false)
      (starts :
        Starts { core with udplst := fwd :: core.udplst } after) :
      Moves inet core after
  | reports
      (reports : Reports inet core after) :
      Moves inet core after
  | ticks :
      Moves inet core (coreReassocTmr core)

theorem moves_coreUdpNew
    {inet : Inet} {addr : IpAddr} {port : UInt16} {core after : CoreCtx}
    (handled : coreUdpNew inet addr port core = .ok after) :
    ∃ mid, Aside core mid ∧ Moves inet mid after := by
  cases waits : leavesPending core addr with
  | false =>
      exact
        ⟨after, aside_immediate waits handled,
          .aside (aside_rest after after.answers after.nextForward)⟩
  | true =>
      simp only [coreUdpNew, waits, if_true] at handled
      cases handled
      refine
        ⟨_, aside_rest core core.answers (core.nextForward + 1), ?_⟩
      refine .waits ?_ (starts_coreStartUdpAssoc _)
      simp only [leavesPending, Bool.and_eq_true,
        Bool.not_eq_true'] at waits
      exact waits.2

/-- Every event first leaves the association alone and then moves it. -/
theorem moves_coreStep
    {inet : Inet} {core after : CoreCtx} {turn : CoreTurn}
    (holds : Consistent core)
    (handled : coreStep inet core turn = .ok after) :
    ∃ mid, Aside core mid ∧ Moves inet mid after := by
  have prepared : Aside core (core.prepare turn) :=
    aside_rest core turn.answers core.nextForward
  have still : Aside after after :=
    aside_rest after after.answers after.nextForward
  rcases turn with ⟨event, answers⟩
  cases event with
  | newTcp addr port =>
      cases handled
      have connects := connects_coreTcpNew inet addr port
        (core.prepare ⟨.newTcp addr port, answers⟩)
      exact
        ⟨_, prepared.trans (aside_of_connects connects), .aside still⟩
  | newUdp addr port =>
      rcases moves_coreUdpNew handled with ⟨mid, aside, moves⟩
      exact ⟨mid, prepared.trans aside, moves⟩
  | datagram number chain =>
      cases handled
      have aside :=
        aside_onForward (runs_udpLwipReceived queries_query chain)
          number (core.prepare ⟨.datagram number chain, answers⟩)
      exact ⟨_, prepared.trans aside, .aside still⟩
  | proxyEvent number events incoming =>
      cases handled
      have aside :=
        aside_onForward
          (runs_forwardIoEvent queries_query events incoming) number
          (core.prepare ⟨.proxyEvent number events incoming, answers⟩)
      exact ⟨_, prepared.trans aside, .aside still⟩
  | assocEvent events handshake =>
      exact
        ⟨_, prepared,
          .reports
            (reports_assocEpollEvent (prepared.consistent holds)
              handled)⟩
  | tick =>
      cases handled
      exact ⟨_, prepared.trans (aside_coreGcTmr _), .ticks⟩

theorem Moves.consistent
    {inet : Inet} {core after : CoreCtx} (moves : Moves inet core after)
    (holds : Consistent core) :
    Consistent after := by
  cases moves with
  | aside aside =>
      exact aside.consistent holds
  | waits unready starts =>
      exact starts.consistent (holds.waits unready _)
  | reports reports =>
      exact reports.consistent holds
  | ticks =>
      exact consistent_coreReassocTmr holds

theorem Moves.timely
    {inet : Inet} {core after : CoreCtx} (moves : Moves inet core after)
    (holds : Consistent core) (timely : Timely core)
    (few : attempts core.trace + 1 < 2 ^ 32) :
    Timely after := by
  cases moves with
  | aside aside =>
      exact aside.timely timely
  | waits unready starts =>
      exact starts.timely (holds.waits unready _)
        ⟨timely.owed, timely.spaced⟩ few
  | reports reports =>
      exact reports.timely holds timely (Nat.lt_of_succ_lt few)
  | ticks =>
      exact timely_coreReassocTmr holds timely few

/-- The runs with a SOCKS5 proxy. -/
def socksSystem (inet : Inet) : System Fault CoreCtx CoreTurn :=
  (coreSystem inet).restrict (fun core => core.conf.proxytype = .socks5)
    fun _ _ => True

/-- The counter of the attempts does not wrap around. -/
def Few (core : CoreCtx) : Prop := attempts core.trace + 1 < 2 ^ 32

/-- The runs with a SOCKS5 proxy in which the counter never wraps around. -/
def fewSystem (inet : Inet) : System Fault CoreCtx CoreTurn :=
  (socksSystem inet).restrict (fun _ => True) fun core _ => Few core

theorem consistent_coreInit
    {conf : Nspconf} (socks : conf.proxytype = .socks5) :
    Consistent (coreInit conf) := by
  constructor
  · exact socks
  · intro assoc impossible
    cases impossible
  · intro ready
    simp [coreInit, socks] at ready
  · intro _ fwd member
    cases member
  · intro assoc impossible
    cases impossible
  · exact Nat.zero_le 32
  · rfl
  · rfl

theorem timely_coreInit (conf : Nspconf) : Timely (coreInit conf) := by
  refine ⟨?_, throughout_nil _⟩
  intro earlier later split
  cases earlier with
  | nil =>
      cases split
  | cons first rest =>
      cases split

theorem consistent_coreStep
    {inet : Inet} {core after : CoreCtx} {turn : CoreTurn}
    (holds : Consistent core)
    (handled : coreStep inet core turn = .ok after) :
    Consistent after := by
  rcases moves_coreStep holds handled with ⟨mid, aside, moves⟩
  exact moves.consistent (aside.consistent holds)

theorem consistent_of_reachable
    {inet : Inet} {core : CoreCtx}
    (reachable : (socksSystem inet).Reachable core) :
    Consistent core := by
  apply reachable.invariant
  · rintro source ⟨⟨conf, rfl⟩, socks⟩
    exact consistent_coreInit socks
  · intro source turn target holds _ handled
    exact consistent_coreStep holds handled

theorem timely_of_reachable
    {inet : Inet} {core : CoreCtx}
    (reachable : (fewSystem inet).Reachable core) :
    Consistent core ∧ Timely core := by
  apply reachable.invariant
  · rintro source ⟨⟨⟨conf, rfl⟩, socks⟩, _⟩
    exact ⟨consistent_coreInit socks, timely_coreInit conf⟩
  · rintro source turn target ⟨holds, timely⟩ ⟨_, few⟩ handled
    rcases moves_coreStep holds handled with ⟨mid, aside, moves⟩
    have consistent := aside.consistent holds
    refine ⟨moves.consistent consistent, ?_⟩
    refine moves.timely consistent (aside.timely timely) ?_
    rcases aside.trace with ⟨entries, trace, plain⟩
    rw [trace, attempts_append_connects _ plain]
    exact few

/-- The variables of the association fit together. -/
structure Disciplined (core : CoreCtx) : Prop where
  ready :
    core.assocready = true →
      ∃ assoc ∈ core.udpassoc,
        assoc.self.phase = .forwarding ∧ assoc.self.relay ≠ none
  pending :
    ∀ fwd ∈ core.udplst, fwd.proxy = none → core.assocready = false
  idle : core.udpassoc ≠ none → core.assoccd = 0
  bounded : core.assoccd ≤ 32
  single : created core.trace ≤ released core.trace + 1

/-- This needs no bound on the number of attempts. -/
theorem disciplined_of_reachable
    {inet : Inet} {core : CoreCtx}
    (reachable : (socksSystem inet).Reachable core) :
    Disciplined core := by
  have holds := consistent_of_reachable reachable
  constructor
  · intro ready
    rcases holds.ready ready with ⟨assoc, present, forwarding⟩
    exact
      ⟨assoc, present, forwarding,
        (holds.client assoc present).relay forwarding⟩
  · intro fwd member pending
    by_contra ready
    exact holds.settled (by simpa using ready) fwd member pending
  · intro present
    rcases Option.ne_none_iff_exists'.mp present with ⟨assoc, found⟩
    exact holds.idle assoc found
  · exact holds.bounded
  · rw [holds.single]
    split
    · exact Nat.le_refl _
    · exact Nat.le_succ _

theorem assoc_state_machine
    {inet : Inet} {core : CoreCtx}
    (reachable : (fewSystem inet).Reachable core) :
    Disciplined core ∧ Throughout Spaced core.trace :=
  ⟨disciplined_of_reachable reachable.of_restrict,
    (timely_of_reachable reachable).2.spaced⟩

instance (inet : Inet) (core : CoreCtx) (turn : CoreTurn) :
    Decidable ((fewSystem inet).enabled core turn) :=
  inferInstanceAs
    (Decidable
      ((coreEnabled core turn ∧ True) ∧
        attempts core.trace + 1 < 2 ^ 32))

/-- A flow to the destination, while the proxy refuses connections. -/
def refusedTurn : CoreTurn where
  event := .newUdp sampleAddr 9
  answers := ⟨[false], [], true, true⟩

theorem assoc_state_machine_refused :
    ∃ core, attempts core.trace = 2 ∧
      Disciplined core ∧ Throughout Spaced core.trace := by
  have passes :
      ((fewSystem sampleInet).replay (coreInit sampleConf)
          [refusedTurn, sampleTurn .tick, sampleTurn .tick,
            refusedTurn]).map
          (fun core => decide (attempts core.trace = 2)) =
        some true := by
    decide +kernel
  have first : (fewSystem sampleInet).initial (coreInit sampleConf) :=
    ⟨⟨⟨sampleConf, rfl⟩, rfl⟩, trivial⟩
  rcases System.Reachable.exists_replay (.start first) passes with
    ⟨core, reachable, counted⟩
  exact
    ⟨core, of_decide_eq_true counted, assoc_state_machine reachable⟩

/-! ## The counter wraps around -/

/-- Between two attempts, while the proxy refuses connections. -/
structure Pausing (count left : Nat) (core : CoreCtx) : Prop where
  reachable : (socksSystem sampleInet).Reachable core
  conf : core.conf = sampleConf
  absent : core.udpassoc = none
  unready : core.assocready = false
  assoccd : core.assoccd = left
  counted : attempts core.trace = count
  pending :
    0 < left → ∃ fwd ∈ core.udplst, fwd.proxy = none ∧ left ≤ fwd.gc

/-- The state after an attempt which was refused. -/
def refusedCore (core : CoreCtx) : CoreCtx :=
  { core with
    answers := ⟨[], [], true, true⟩
    nextForward := core.nextForward + 1
    nextAssoc := core.nextAssoc + 1
    udplst := udpForwardCreate sampleAddr 9 core :: core.udplst
    assocretries := core.assocretries + 1
    assoccd := backoff (core.assocretries + 1)
    trace := core.trace ++ [.assocCreate false, .assocFailed] }

theorem refused_step
    {core : CoreCtx} (conf : core.conf = sampleConf)
    (absent : core.udpassoc = none) (unready : core.assocready = false)
    (zero : core.assoccd = 0) :
    coreStep sampleInet core refusedTurn = .ok (refusedCore core) := by
  have outside : isGateway sampleConf sampleAddr = false := by decide
  have unlisted : isDirectCidrTarget sampleConf sampleAddr = false := by
    decide
  have socks : sampleConf.proxytype = .socks5 := rfl
  have refused : socksAssocCreate false true = none := by decide
  simp [coreStep, refusedTurn, CoreCtx.prepare, coreUdpNew,
    leavesPending, coreStartUdpAssoc, conf, absent, unready, zero,
    outside, unlisted, socks, refused, refusedCore, CoreCtx.record,
    udpForwardCreate]

theorem Pausing.refused
    {count : Nat} {core : CoreCtx} (pausing : Pausing count 0 core) :
    Pausing (count + 1) (backoff (core.assocretries + 1))
      (refusedCore core) where
  reachable := by
    have permitted :
        (socksSystem sampleInet).enabled core refusedTurn :=
      ⟨trivial, trivial⟩
    exact .next pausing.reachable permitted
      (refused_step pausing.conf pausing.absent pausing.unready
        pausing.assoccd)
  conf := pausing.conf
  absent := pausing.absent
  unready := pausing.unready
  assoccd := rfl
  counted := by
    have appended :
        (refusedCore core).trace =
          (core.trace ++ [.assocCreate false]) ++ [.assocFailed] :=
      concat_pair core.trace _ _
    rw [appended, attempts_concat, attempts_concat, pausing.counted]
    rfl
  pending := by
    intro _
    refine ⟨_, List.mem_cons_self, rfl, ?_⟩
    have lasts : 32 ≤ idleTimeout 9 := by decide
    exact Nat.le_trans (backoff_le _) lasts

/-- The state after a tick which took one off the countdown. -/
def tickedCore (core : CoreCtx) : CoreCtx :=
  { coreGcTmr core with
    answers := ⟨[], [], true, true⟩
    assoccd := core.assoccd - 1
    trace := core.trace ++ [.reassocTick] }

/-- The pending flow outlives the countdown. -/
theorem Pausing.survives
    {count left : Nat} {core : CoreCtx}
    (pausing : Pausing count (left + 1) core) :
    ∃ fwd ∈ (coreGcTmr core).udplst,
      fwd.proxy = none ∧ left ≤ fwd.gc := by
  rcases pausing.pending (Nat.succ_pos left) with
    ⟨fwd, member, pending, lasts⟩
  refine ⟨{ fwd with gc := fwd.gc - 1 }, ?_, pending, ?_⟩
  · refine List.mem_filterMap.mpr ⟨fwd, member, ?_⟩
    have positive : fwd.gc ≠ 0 :=
      Nat.ne_of_gt (Nat.lt_of_lt_of_le (Nat.succ_pos left) lasts)
    rw [if_neg positive]
  · exact Nat.le_sub_of_add_le lasts

theorem Pausing.ticked_step
    {count left : Nat} {core : CoreCtx}
    (pausing : Pausing count (left + 1) core) :
    coreStep sampleInet core (sampleTurn .tick) =
      .ok (tickedCore core) := by
  have pending :
      coreHasPendingUdpAssoc
          (coreGcTmr (core.prepare (sampleTurn .tick))) =
        true := by
    rcases pausing.survives with ⟨fwd, member, pending, _⟩
    refine List.any_eq_true.mpr ⟨fwd, member, ?_⟩
    rw [pending]
    rfl
  have socks : sampleConf.proxytype = .socks5 := rfl
  have conf :
      (coreGcTmr (core.prepare (sampleTurn .tick))).conf = sampleConf :=
    pausing.conf
  have absent :
      (coreGcTmr (core.prepare (sampleTurn .tick))).udpassoc = none :=
    pausing.absent
  have unready :
      (coreGcTmr (core.prepare (sampleTurn .tick))).assocready =
        false :=
    pausing.unready
  have positive :
      0 < (coreGcTmr (core.prepare (sampleTurn .tick))).assoccd :=
    pausing.assoccd ▸ Nat.succ_pos left
  have ticked :
      coreTick (core.prepare (sampleTurn .tick)) = tickedCore core := by
    simp only [coreTick, coreReassocTmr, conf, socks, absent, unready,
      pending, if_pos positive]
    rfl
  exact congrArg Except.ok ticked

theorem Pausing.ticked
    {count left : Nat} {core : CoreCtx}
    (pausing : Pausing count (left + 1) core) :
    Pausing count left (tickedCore core) where
  reachable := by
    have permitted :
        (socksSystem sampleInet).enabled core (sampleTurn .tick) :=
      ⟨trivial, trivial⟩
    exact .next pausing.reachable permitted pausing.ticked_step
  conf := pausing.conf
  absent := pausing.absent
  unready := pausing.unready
  assoccd := by
    rw [tickedCore, pausing.assoccd]
    rfl
  counted := by
    rw [tickedCore, attempts_concat]
    exact pausing.counted
  pending := fun _ => pausing.survives

theorem Pausing.elapses
    {count left : Nat} {core : CoreCtx}
    (pausing : Pausing count left core) :
    ∃ after, Pausing count 0 after := by
  induction left generalizing core with
  | zero =>
      exact ⟨core, pausing⟩
  | succ left induction =>
      exact induction pausing.ticked

/-- The proxy may refuse any number of attempts. -/
theorem exists_pausing (count : Nat) : ∃ core, Pausing count 0 core := by
  induction count with
  | zero =>
      refine ⟨coreInit sampleConf, ?_, rfl, rfl, rfl, rfl, rfl, ?_⟩
      · exact .start ⟨⟨sampleConf, rfl⟩, rfl⟩
      · intro impossible
        cases impossible
  | succ count induction =>
      rcases induction with ⟨core, pausing⟩
      exact pausing.refused.elapses

/--
After `2 ^ 32` refused attempts the counter is zero again, and the next one
follows after a single tick.
-/
theorem attempts_not_spaced :
    ¬ ∀ inet core, (socksSystem inet).Reachable core →
      Disciplined core ∧ Throughout Spaced core.trace := by
  intro claimed
  rcases exists_pausing (2 ^ 32 - 1) with ⟨core, pausing⟩
  have counted := (consistent_of_reachable pausing.reachable).counted
  have wrapped : backoff (core.assocretries + 1) = 1 := by
    rw [backoff, toNat_succ_mod counted, pausing.counted]
    rfl
  have failed := pausing.refused
  rw [wrapped] at failed
  have again := failed.ticked.refused
  have spaced := (claimed sampleInet _ again.reachable).2
  have demanded :=
    spaced (tickedCore (refusedCore core)).trace (.assocCreate false)
      [.assocFailed] rfl (core.trace ++ [.assocCreate false])
      [.reassocTick] (by simp [tickedCore, refusedCore])
  rw [attempts_concat, pausing.counted] at demanded
  exact absurd demanded (by decide)

end Nsproxy.Core.UdpAssoc
