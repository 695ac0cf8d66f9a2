import Nsproxy.Process.StartupSound

/-!
# What a start comes to

Two properties of every interleaving.  The application starts only in its own
namespace and with a parent which is ready for it; and neither process waits
for the other one for ever, since the end which a dying process lets go of is
an answer too.
-/

namespace Nsproxy.Process.Startup

open Nsproxy.Conf
open Nsproxy.Lib.SocketPair
open Nsproxy.Lib.Transition
open Nsproxy.Loop.Children (Kernel Status Run loopSystem LastReaped)

/-! ## Nobody waits for ever -/

/-- The calls which the two processes make by themselves. -/
def Event.own : Event → Bool
  | .parent _ => true
  | .child _ => true
  | .loop _ => true
  | .finish => true
  | _ => false

/-- The child waits for the byte only while the parent can go on. -/
theorem State.Sound.childWaits
    {conf : Nspconf} {state : State} (sound : state.Sound conf)
    (waiting : state.child.position = .readReady)
    (blocks : state.Blocks .child) :
    2 ≤ state.parent.position.rank ∧ state.ParentMoves := by
  have rank : state.child.position.rank = 4 := by
    rw [waiting]
    rfl
  have empty := Pair.read_blocks blocks.reads
  have holds : .parent ∈ state.pair.holders .left := by
    by_contra left
    apply empty.2
    rw [Pair.hungUp_iff]
    intro holder member
    cases holder with
    | parent => exact left member
    | child =>
        have first := sound.holds.childLeft member
        rw [waiting] at first
        cases first
  have alive := sound.holds.parentLeft holds
  refine ⟨alive, ?_⟩
  unfold State.ParentMoves
  cases position : state.parent.position with
  | recvFd =>
      intro stuck
      have sent := sound.speaks.sent (by simp [position, ParentAt.rank])
        (by omega) (by omega)
      exact sent (Pair.read_blocks stuck.reads).1
  | loopRun =>
      rw [position] at alive
      exact absurd alive (by decide)
  | ended code => simp [position, ParentAt.rank] at alive
  | closePeer => trivial
  | setupSignalfd => trivial
  | loopInit => trivial
  | coreInit => trivial
  | writeReady => trivial
  | closeSk => trivial

/-- The parent waits for the descriptor only while the child lives. -/
theorem State.Sound.parentWaits
    {conf : Nspconf} {state : State} (sound : state.Sound conf)
    (waiting : state.parent.position = .recvFd)
    (blocks : state.Blocks .parent) :
    3 ≤ state.child.position.rank := by
  have empty := Pair.read_blocks blocks.reads
  by_contra gone
  apply empty.2
  rw [Pair.hungUp_iff]
  intro holder member
  cases holder with
  | parent =>
      have first := sound.holds.parentRight member
      rw [waiting] at first
      cases first
  | child => exact gone (sound.holds.childRight member)

/-- The application was started, or both processes are gone. -/
def State.Decided (state : State) : Prop :=
  state.child.started = true ∨
    state.parent.position.isEnded = true ∧ state.child.position = .ended

theorem State.Sound.early
    {conf : Nspconf} {state : State} (sound : state.Sound conf)
    (unstarted : state.child.started = false) :
    state.child.position ≠ .application := by
  intro application
  have started := sound.running application
  rw [unstarted] at started
  cases started

/-- As long as the child lives, one of the two can make its next call. -/
theorem State.Sound.childProgress
    {conf : Nspconf} {state : State} (sound : state.Sound conf)
    (unstarted : state.child.started = false)
    (alive : state.child.position ≠ .ended) :
    state.ParentMoves ∨ state.ChildMoves := by
  have early := sound.early unstarted
  by_cases waiting : state.child.position = .readReady
  · by_cases blocks : state.Blocks .child
    · exact Or.inl (sound.childWaits waiting blocks).2
    · right
      simpa only [State.ChildMoves, waiting] using blocks
  · right
    unfold State.ChildMoves
    split
    · exact early ‹_›
    · exact alive ‹_›
    · exact absurd ‹_› waiting
    · trivial

/-- When no child is running, the parent can make its next call. -/
theorem State.Sound.parentProgress
    {conf : Nspconf} {state : State} (sound : state.Sound conf)
    (alone : state.run.kernel.running = [])
    (open_ : state.parent.position.isEnded = false) :
    ∃ event : Event, event.own = true ∧ state.enabled event := by
  have ended : state.child.position = .ended := by
    by_contra alive
    have running := sound.counts.alive alive
    rw [alone] at running
    cases running
  by_cases looping : state.parent.position = .loopRun
  · have reachable := sound.counts.looping looping
    have ending : state.run.Ending :=
      ⟨Loop.Children.sound_of_reachable reachable, alone⟩
    by_cases returned : state.run.Returned
    · exact ⟨.finish, rfl, looping, returned⟩
    · rcases ending.progress returned with ⟨event, permitted⟩
      have own : ofLoop event = true := by
        cases event with
        | fork pid => exact absurd alone permitted
        | die pid stat =>
            exact absurd alone (List.ne_nil_of_mem permitted.1)
        | stop => exact absurd alone permitted
        | readSignal => rfl
        | waitpid pick => rfl
      exact ⟨.loop event, rfl, looping, own, permitted⟩
  · refine ⟨.parent .error, rfl, ?_⟩
    change state.ParentMoves
    unfold State.ParentMoves
    split
    · exact looping ‹_›
    · next code position =>
        rw [position] at open_
        cases open_
    · next receiving =>
        intro blocks
        have present := sound.parentWaits receiving blocks
        rw [ended] at present
        exact absurd present (by decide)
    · trivial

/-- Short of the decision somebody can make the next call. -/
theorem State.Sound.progress
    {conf : Nspconf} {state : State} (sound : state.Sound conf)
    (open_ : ¬ state.Decided) :
    ∃ event : Event, event.own = true ∧ state.enabled event := by
  have unstarted : state.child.started = false := by
    cases started : state.child.started with
    | false => rfl
    | true => exact absurd (Or.inl started) open_
  by_cases ended : state.child.position = .ended
  · have alone := sound.counts.alone unstarted
    rw [if_pos ended] at alone
    apply sound.parentProgress alone
    cases present : state.parent.position.isEnded with
    | false => rfl
    | true => exact absurd (Or.inr ⟨present, ended⟩) open_
  · rcases sound.childProgress unstarted ended with parent | child
    · exact ⟨.parent .error, rfl, parent⟩
    · exact ⟨.child .error, rfl, child⟩

/-- A sound state in which no child is running any more. -/
def State.Childless (conf : Nspconf) (state : State) : Prop :=
  state.Sound conf ∧ state.run.kernel.running = []

theorem State.Childless.step
    {conf : Nspconf} {state : State} (childless : state.Childless conf)
    {event : Event} (permitted : state.enabled event) :
    (state.step conf event).Childless conf := by
  refine ⟨childless.1.step permitted, ?_⟩
  have ended : state.child.position = .ended := by
    by_contra alive
    have running := childless.1.counts.alive alive
    rw [childless.2] at running
    cases running
  cases event with
  | parent answer =>
      have move := parentStep_moves state answer permitted
      simp only [State.step]
      generalize state.parentStep answer = next at move
      cases move <;> exact childless.2
  | child answer =>
      simp [State.enabled, State.ChildMoves, ended] at permitted
  | loop event =>
      exact (keeps_ofLoop permitted.2.1).1.trans childless.2
  | finish =>
      rcases permitted.2 with ⟨code, returned⟩
      simp only [State.step, returned]
      exact childless.2
  | family event =>
      have happens := permitted.2
      cases event with
      | fork pid => exact absurd childless.2 happens.1
      | die pid stat =>
          exact absurd childless.2 (List.ne_nil_of_mem happens.1)
      | stop => exact absurd childless.2 happens
      | readSignal => exact happens.elim
      | waitpid pick => exact happens.elim
  | childDies stat => exact absurd ended permitted.1
  | parentDies => exact childless.2

/-! ## The way to the end -/

/-- How many calls are left, and how many deaths. -/
def State.work (state : State) : Nat :=
  state.parent.position.rank + state.run.remaining +
    2 * state.child.position.rank

theorem State.work_parentEnds
    {state : State} (alive : state.parent.position.isEnded = false)
    (code : Option Nat) : (state.parentEnds code).work < state.work := by
  have positive : 0 < state.parent.position.rank := by
    cases position : state.parent.position with
    | ended code =>
        rw [position] at alive
        cases alive
    | _ => simp [ParentAt.rank]
  have gone : (ParentAt.ended code).rank = 0 := rfl
  simp only [State.work, State.parentEnds, gone]
  omega

theorem ParentMove.falls
    {state next : State} (move : ParentMove state next)
    (alive : state.parent.position.isEnded = false) :
    next.work < state.work := by
  cases move with
  | ends code => exact State.work_parentEnds alive code
  | closesPeer first =>
      simp only [State.work, first, ParentAt.rank]
      omega
  | receives tunfd rest receiving waiting =>
      simp only [State.work, receiving, ParentAt.rank]
      omega
  | prepares parent started progresses onward early tunfd =>
      simp only [State.work]
      omega
  | writes writing held =>
      simp only [State.work, writing, ParentAt.rank]
      omega
  | closes closing =>
      simp only [State.work, closing, ParentAt.rank]
      omega

/-- A death is one more child to wait for, and one process less. -/
theorem State.work_childEnds
    {state : State} (alive : state.child.position ≠ .ended)
    (stat : Status) : (state.childEnds stat).work < state.work := by
  have positive : 0 < state.child.position.rank := by
    cases position : state.child.position with
    | ended => exact absurd position alive
    | _ => simp [ChildAt.rank]
  have gone : ChildAt.ended.rank = 0 := rfl
  cases phase : state.run.phase <;>
    simp only [State.work, State.childEnds, State.buried, Run.remaining,
      phase, gone, List.length_append, List.length_singleton] <;>
    omega

theorem ChildMove.falls
    {conf : Nspconf} {state next : State}
    (move : ChildMove conf state next)
    (alive : state.child.position ≠ .ended) :
    next.work < state.work := by
  cases move with
  | ends stat dead => exact State.work_childEnds alive stat
  | closesPeer first =>
      simp only [State.work, first, ChildAt.rank]
      omega
  | prepares child started progresses onward early unstarted =>
      simp only [State.work]
      omega
  | sends tunfd sending made held =>
      simp only [State.work, sending, ChildAt.rank]
      omega
  | reads first rest reading waiting =>
      simp only [State.work, reading, ChildAt.rank]
      omega
  | closes closing =>
      simp only [State.work, closing, ChildAt.rank]
      omega
  | becomes last =>
      simp only [State.work, last, ChildAt.rank]
      omega

/--
A step before the application is started, or after every child has ended,
brings both processes closer to their ends.
-/
theorem State.Sound.falls
    {conf : Nspconf} {state : State} (sound : state.Sound conf)
    {event : Event} (permitted : state.enabled event)
    (few :
      state.child.started = false ∨ state.run.kernel.running = []) :
    (state.step conf event).work < state.work := by
  cases event with
  | parent answer =>
      apply (parentStep_moves state answer permitted).falls
      cases position : state.parent.position with
      | ended code =>
          simp [State.enabled, State.ParentMoves, position] at permitted
      | _ => rfl
  | child answer =>
      apply (childStep_moves conf state answer permitted).falls
      intro ended
      simp [State.enabled, State.ChildMoves, ended] at permitted
  | loop event =>
      have alone : state.run.kernel.running = [] := by
        rcases few with unstarted | alone
        · by_contra running
          have alive : state.child.position ≠ .ended := by
            intro ended
            have counted := sound.counts.alone unstarted
            rw [if_pos ended] at counted
            exact running counted
          exact sound.counts.idle unstarted alive permitted.2
        · exact alone
      have reachable := sound.counts.looping permitted.1
      have ending : state.run.Ending :=
        ⟨Loop.Children.sound_of_reachable reachable, alone⟩
      have falls := (ending.falls permitted.2.2).2
      simp only [State.step, State.work]
      omega
  | finish =>
      rcases permitted.2 with ⟨code, returned⟩
      simp only [State.step, returned]
      apply State.work_parentEnds
      rw [permitted.1]
      rfl
  | family event =>
      rcases few with unstarted | alone
      · have started := permitted.1
        rw [unstarted] at started
        cases started
      · have happens := permitted.2
        cases event with
        | fork pid => exact absurd alone happens.1
        | die pid stat =>
            exact absurd alone (List.ne_nil_of_mem happens.1)
        | stop => exact absurd alone happens
        | readSignal => exact happens.elim
        | waitpid pick => exact happens.elim
  | childDies stat => exact State.work_childEnds permitted.1 stat
  | parentDies => exact State.work_parentEnds permitted _

/-! ## Both of them start -/

/--
In every interleaving, whatever the calls answer and whoever is killed: the
application runs only in its own namespace, with the loopback and the TUN
device up, and only after the parent has blocked `SIGCHLD`, made the loop,
and handed the core the very descriptor which the child made; it holds
neither end of the pair.  A parent in its loop is as ready, and the runs of
its loop begin with the signal of every dead child pending.
-/
theorem application_starts_ready
    {conf : Nspconf} {state : State}
    (reachable : (startSystem conf).Reachable state) :
    (state.child.started = true →
      state.child.Confined conf ∧ state.parent.Ready ∧
        state.parent.core = state.child.tunfd ∧
        ∀ side, .child ∉ state.pair.holders side) ∧
    (state.parent.position = .loopRun →
      state.parent.Ready ∧ loopSystem.Reachable state.run) := by
  have sound := sound_of_reachable reachable
  refine ⟨?_, ?_⟩
  · intro started
    have ready := (sound.speaks.told (Or.inr (Or.inr started))).1
    refine ⟨sound.confined started, ready, ?_, ?_⟩
    · rcases Option.isSome_iff_exists.mp ready.tunfd with
        ⟨tunfd, received⟩
      rw [ready.core, received, sound.speaks.received tunfd received]
    · have late : ¬ 2 ≤ state.child.position.rank := by
        intro early
        have unstarted := sound.unstarted early
        rw [started] at unstarted
        cases unstarted
      intro side holds
      cases side with
      | left =>
          have first := sound.holds.childLeft holds
          rw [first] at late
          exact absurd late (by decide)
      | right =>
          have early := sound.holds.childRight holds
          omega
  · intro looping
    refine ⟨?_, sound.counts.looping looping⟩
    apply sound.parent.ready <;> simp [looping, ParentAt.rank]

instance (run : Run) : Decidable run.Returned :=
  match phase : run.phase with
  | .returned code => isTrue ⟨code, phase⟩
  | .waiting => isFalse (by simp [Run.Returned, phase])
  | .reaping code => isFalse (by simp [Run.Returned, phase])

instance (state : State) (party : Party) :
    Decidable (state.Blocks party) := by
  unfold State.Blocks
  split <;> infer_instance

instance (state : State) : Decidable state.ParentMoves := by
  unfold State.ParentMoves
  split <;> infer_instance

instance (state : State) : Decidable state.ChildMoves := by
  unfold State.ChildMoves
  split <;> infer_instance

instance (state : State) :
    (event : Loop.Children.Event) → Decidable (state.mayHappen event)
  | .fork _ => inferInstanceAs (Decidable (_ ∧ _))
  | .die _ _ => inferInstanceAs (Decidable (_ ∧ _ ∧ _))
  | .stop => inferInstanceAs (Decidable (_ ≠ _))
  | .readSignal => inferInstanceAs (Decidable False)
  | .waitpid _ => inferInstanceAs (Decidable False)

instance (state : State) : Decidable
    (∃ code, state.run.phase = .returned code) :=
  inferInstanceAs (Decidable state.run.Returned)

instance (state : State) (event : Event) :
    Decidable (state.enabled event) := by
  cases event <;> unfold State.enabled <;> infer_instance

instance (conf : Nspconf) (state : State) (event : Event) :
    Decidable ((startSystem conf).enabled state event) :=
  inferInstanceAs (Decidable (state.enabled event))

def sampleConf : Nspconf where
  proxysrv := ascii "p"
  proxyport := 1080
  proxytype := .socks5
  dnssrv := ascii "d"
  dnsport := 53
  dnstype := .tcp
  proxyuser := []
  proxypass := []
  ipv6 := true
  directCidrs := []
  directCidrCapacity := 0
  directCidrMode := .whitelist

/-- The calls of a start by a user who may make no mounts. -/
def sampleEvents : List Event :=
  [.child (.ok 0), .parent (.ok 0), .child .error, .child (.ok 0),
    .child (.ok 0), .child .error, .child (.ok 0), .child (.ok 5),
    .child (.ok 0), .child (.ok 0), .parent (.ok 0), .parent (.ok 3),
    .parent (.ok 4), .parent (.ok 0), .parent (.ok 0), .child (.ok 0),
    .child (.ok 0), .child (.ok 0), .parent (.ok 0)]

theorem application_starts_ready_sample :
    ∃ state : State,
      state.child.started = true ∧ state.parent.position = .loopRun ∧
        state.parent.core = some 5 ∧ state.child.tunfd = some 5 ∧
        state.parent.core = state.child.tunfd ∧
        loopSystem.Reachable state.run := by
  have passes :
      ((startSystem sampleConf).replay (State.forked 7)
        sampleEvents).map
          (fun state =>
            state.child.started &&
              decide (state.parent.position = .loopRun) &&
              decide (state.parent.core = some 5) &&
              decide (state.child.tunfd = some 5)) = some true := by
    decide +kernel
  have start :
      (startSystem sampleConf).Reachable (State.forked 7) :=
    .start ⟨7, rfl⟩
  rcases start.exists_replay passes with ⟨state, reachable, test⟩
  simp only [Bool.and_eq_true, decide_eq_true_eq] at test
  have ready := application_starts_ready reachable
  exact ⟨state, test.1.1.1, test.1.1.2, test.1.2, test.2,
    (ready.1 test.1.1.1).2.2.1, (ready.2 test.1.1.2).2⟩

/--
From every state a run can come to: neither process waits for ever.  However
the calls answer, whatever else the environment may do or never does, and so
also when nobody is killed, the two come to a state where the application was
started or both are gone; and once no child is running the parent ends.
-/
theorem start_never_hangs
    {conf : Nspconf} {state : State}
    (reachable : (startSystem conf).Reachable state)
    (permits : State → Event → Prop)
    (own :
      ∀ (source : State) (event : Event),
        event.own = true → permits source event) :
    ((startSystem conf).restrict (fun _ => True) permits).Inevitable
      State.Decided state ∧
    (state.run.kernel.running = [] →
      ((startSystem conf).restrict (fun _ => True) permits).Inevitable
        (fun later => later.parent.position.isEnded = true) state) := by
  have sound := sound_of_reachable reachable
  refine ⟨?_, ?_⟩
  · apply System.Inevitable.of_measure (State.Sound conf) State.work
    · intro source sound open_
      rcases sound.progress open_ with ⟨event, mine, permitted⟩
      exact
        ⟨event, _, ⟨permitted, own source event mine⟩, rfl⟩
    · intro source event target sound open_ permitted handled
      cases handled
      refine ⟨sound.step permitted.1, sound.falls permitted.1 (Or.inl ?_)⟩
      cases started : source.child.started with
      | false => rfl
      | true => exact absurd (Or.inl started) open_
    · exact sound
  · intro alone
    apply System.Inevitable.of_measure (State.Childless conf) State.work
    · intro source childless open_
      have present : source.parent.position.isEnded = false := by
        simpa using open_
      rcases childless.1.parentProgress childless.2 present with
        ⟨event, mine, permitted⟩
      exact
        ⟨event, _, ⟨permitted, own source event mine⟩, rfl⟩
    · intro source event target childless _ permitted handled
      cases handled
      exact
        ⟨childless.step permitted.1,
          childless.1.falls permitted.1 (Or.inr childless.2)⟩
    · exact ⟨sound, alone⟩

/-- The two processes right after `fork`, when nobody is killed. -/
theorem start_never_hangs_sample :
    ((startSystem sampleConf).restrict (fun _ => True)
      (fun _ event => event.own = true)).Inevitable
        State.Decided (State.forked 7) :=
  (start_never_hangs (.start ⟨7, rfl⟩) (fun _ event => event.own = true)
    (fun _ _ mine => mine)).1

end Nsproxy.Process.Startup
