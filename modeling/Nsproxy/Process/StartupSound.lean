import Nsproxy.Process.Startup

/-!
# What holds while the two processes start

What a call can come to is listed once for each process.  The invariant
counts both processes down along their calls: what each has set up by then,
who holds which end of the pair, what is under way between them, and what the
kernel knows of the children.

The byte is the pivot.  It is written while the child lives, since an end
which is hung up kills the writer; so no death came before `SIGCHLD` was
blocked, and the child which reads it knows the parent to be ready.
-/

namespace Nsproxy.Process.Startup

open Nsproxy.Conf
open Nsproxy.Lib.SocketPair
open Nsproxy.Lib.Transition
open Nsproxy.Loop.Children (Kernel Status Run loopSystem LastReaped)

/-! ## What a call can do -/

/-- How far the child is from its end; the application is one step away. -/
def ChildAt.rank : ChildAt → Nat
  | .closePeer => 15
  | .unshareNet => 14
  | .unshareUser => 13
  | .mapIds => 12
  | .unshareMount => 11
  | .overwriteResolv => 10
  | .overwriteNsswitch => 9
  | .bringupLoopback => 8
  | .bringupTun => 7
  | .setupIpv6 => 6
  | .sendFd => 5
  | .readReady => 4
  | .closeSk => 3
  | .execvp => 2
  | .application => 1
  | .ended => 0

/-- How far the parent is from its end. -/
def ParentAt.rank : ParentAt → Nat
  | .closePeer => 8
  | .recvFd => 7
  | .setupSignalfd => 6
  | .loopInit => 5
  | .coreInit => 4
  | .writeReady => 3
  | .closeSk => 2
  | .loopRun => 1
  | .ended _ => 0

/-- What the parent has set up before it tells the child. -/
structure Parent.Ready (parent : Parent) : Prop where
  core : parent.core = parent.tunfd
  tunfd : parent.tunfd.isSome = true
  blocked : parent.blocked = true
  loop : parent.loop = true

theorem Parent.Ready.elsewhere
    {parent : Parent} (ready : parent.Ready) (position : ParentAt) :
    { parent with position := position }.Ready :=
  ⟨ready.core, ready.tunfd, ready.blocked, ready.loop⟩

/-- What the parent has set up at each of its calls. -/
structure Parent.Progresses (parent : Parent) : Prop where
  tunfd :
    parent.position.rank ≤ 6 → 1 ≤ parent.position.rank →
      parent.tunfd.isSome = true
  blocked :
    parent.position.rank ≤ 5 → 1 ≤ parent.position.rank →
      parent.blocked = true
  loop :
    parent.position.rank ≤ 4 → 1 ≤ parent.position.rank →
      parent.loop = true
  core :
    parent.position.rank ≤ 3 → 1 ≤ parent.position.rank →
      parent.core = parent.tunfd

theorem Parent.Progresses.ready
    {parent : Parent} (progresses : parent.Progresses)
    (late : parent.position.rank ≤ 3) (alive : 1 ≤ parent.position.rank) :
    parent.Ready where
  core := progresses.core late alive
  tunfd := progresses.tunfd (Nat.le_trans late (by decide)) alive
  blocked := progresses.blocked (Nat.le_trans late (by decide)) alive
  loop := progresses.loop (Nat.le_trans late (by decide)) alive

/--
The application has no network but the TUN device of its own namespace, as
far as it was asked for.
-/
structure Child.Confined (conf : Nspconf) (child : Child) : Prop where
  netns : child.netns = true
  loopback : child.loopback = true
  tunfd : child.tunfd.isSome = true
  ipv6 : conf.ipv6 = true → child.ipv6 = true

theorem Child.Confined.elsewhere
    {conf : Nspconf} {child : Child} (confined : child.Confined conf)
    (position : ChildAt) :
    { child with position := position }.Confined conf :=
  ⟨confined.netns, confined.loopback, confined.tunfd, confined.ipv6⟩

/-- What the child has set up at each of its calls. -/
structure Child.Progresses (conf : Nspconf) (child : Child) : Prop where
  netns :
    child.position.rank ≤ 12 → 1 ≤ child.position.rank →
      child.netns = true
  loopback :
    child.position.rank ≤ 7 → 1 ≤ child.position.rank →
      child.loopback = true
  tunfd :
    child.position.rank ≤ 6 → 1 ≤ child.position.rank →
      child.tunfd.isSome = true
  ipv6 :
    child.position.rank ≤ 5 → 1 ≤ child.position.rank →
      conf.ipv6 = true → child.ipv6 = true

theorem Child.Progresses.confined
    {conf : Nspconf} {child : Child} (progresses : child.Progresses conf)
    (late : child.position.rank ≤ 5) (alive : 1 ≤ child.position.rank) :
    child.Confined conf where
  netns := progresses.netns (Nat.le_trans late (by decide)) alive
  loopback := progresses.loopback (Nat.le_trans late (by decide)) alive
  tunfd := progresses.tunfd (Nat.le_trans late (by decide)) alive
  ipv6 := progresses.ipv6 late alive

/-- What a call of the parent comes to. -/
inductive ParentMove (state : State) : State → Prop where
  /-- It gives up, or is killed. -/
  | ends (code : Option Nat) : ParentMove state (state.parentEnds code)
  | closesPeer
      (first : state.parent.position = .closePeer) :
      ParentMove state
        { state with
          pair := state.pair.close .right .parent
          parent := { state.parent with position := .recvFd } }
  | receives (tunfd : Nat) (rest : List Message)
      (receiving : state.parent.position = .recvFd)
      (waiting :
        state.pair.queue .left = .descriptor tunfd :: rest) :
      ParentMove state
        { state with
          pair := state.pair.consume .left
          parent :=
            { state.parent with
              position := .setupSignalfd
              tunfd := some tunfd } }
  | prepares (parent : Parent)
      (started : state.parent.position.rank ≤ 6)
      (progresses : state.parent.Progresses → parent.Progresses)
      (onward : parent.position.rank + 1 = state.parent.position.rank)
      (early : 3 ≤ parent.position.rank)
      (tunfd : parent.tunfd = state.parent.tunfd) :
      ParentMove state { state with parent := parent }
  | writes
      (writing : state.parent.position = .writeReady)
      (held : ¬ state.pair.HungUp .left) :
      ParentMove state
        { state with
          pair := state.pair.write .left .ready
          parent := { state.parent with position := .closeSk } }
  | closes
      (closing : state.parent.position = .closeSk) :
      ParentMove state
        { state with
          pair := state.pair.close .left .parent
          parent := { state.parent with position := .loopRun } }

/-- A call which sets up a part, or fails. -/
theorem parentMove_setup
    {state : State} {answer : Answer} {parent : Parent}
    (started : state.parent.position.rank ≤ 6)
    (progresses : state.parent.Progresses → parent.Progresses)
    (onward : parent.position.rank + 1 = state.parent.position.rank)
    (early : 3 ≤ parent.position.rank)
    (tunfd : parent.tunfd = state.parent.tunfd) :
    ParentMove state
      (match answer with
      | .ok _ => { state with parent := parent }
      | _ => state.parentFails) := by
  cases answer with
  | ok fd =>
      exact .prepares parent started progresses onward early tunfd
  | unsupported => exact .ends _
  | error => exact .ends _

theorem parentStep_moves
    (state : State) (answer : Answer) (moves : state.ParentMoves) :
    ParentMove state (state.parentStep answer) := by
  unfold State.ParentMoves at moves
  unfold State.parentStep
  cases position : state.parent.position with
  | closePeer => exact .closesPeer position
  | recvFd =>
      rw [position] at moves
      dsimp only
      split
      · exact .ends _
      · cases found : state.pair.read .left with
        | message first =>
            rcases Pair.read_message found with ⟨rest, waiting⟩
            cases first with
            | descriptor tunfd =>
                exact .receives tunfd rest position waiting
            | ready => exact .ends _
        | eof => exact .ends _
        | blocks =>
            have blocks : state.Blocks .parent := by
              simp only [State.Blocks, Party.side, found]
            exact absurd blocks moves
  | setupSignalfd =>
      apply parentMove_setup <;> simp only [position, ParentAt.rank]
      · decide
      · intro progresses
        have tunfd := progresses.tunfd
        simp only [position, ParentAt.rank] at tunfd
        constructor <;> simp_all [ParentAt.rank]
      · decide
  | loopInit =>
      apply parentMove_setup <;> simp only [position, ParentAt.rank]
      · decide
      · intro progresses
        have tunfd := progresses.tunfd
        have blocked := progresses.blocked
        simp only [position, ParentAt.rank] at tunfd blocked
        constructor <;> simp_all [ParentAt.rank]
      · decide
  | coreInit =>
      apply parentMove_setup <;> simp only [position, ParentAt.rank]
      · decide
      · intro progresses
        have tunfd := progresses.tunfd
        have blocked := progresses.blocked
        have loop := progresses.loop
        simp only [position, ParentAt.rank] at tunfd blocked loop
        constructor <;> simp_all [ParentAt.rank]
      · decide
  | writeReady =>
      dsimp only
      split
      · exact .ends _
      · split
        · exact .ends _
        · next held => exact .writes position held
  | closeSk => exact .closes position
  | loopRun =>
      rw [position] at moves
      exact moves.elim
  | ended code =>
      rw [position] at moves
      exact moves.elim

/-- What a call of the child comes to. -/
inductive ChildMove (conf : Nspconf) (state : State) : State → Prop where
  /-- It gives up, or is killed. -/
  | ends (stat : Status) (dead : stat.exitcode.isSome = true) :
      ChildMove conf state (state.childEnds stat)
  | closesPeer
      (first : state.child.position = .closePeer) :
      ChildMove conf state
        { state with
          pair := state.pair.close .left .child
          child := { state.child with position := .unshareNet } }
  | prepares (child : Child)
      (started : state.child.position.rank ≤ 14)
      (progresses :
        state.child.Progresses conf → child.Progresses conf)
      (onward : child.position.rank < state.child.position.rank)
      (early : 5 ≤ child.position.rank)
      (unstarted : child.started = state.child.started) :
      ChildMove conf state { state with child := child }
  | sends (tunfd : Nat)
      (sending : state.child.position = .sendFd)
      (made : state.child.tunfd = some tunfd)
      (held : ¬ state.pair.HungUp .right) :
      ChildMove conf state
        { state with
          pair := state.pair.write .right (.descriptor tunfd)
          child := { state.child with position := .readReady } }
  | reads (first : Message) (rest : List Message)
      (reading : state.child.position = .readReady)
      (waiting : state.pair.queue .right = first :: rest) :
      ChildMove conf state
        { state with
          pair := state.pair.consume .right
          child := { state.child with position := .closeSk } }
  | closes
      (closing : state.child.position = .closeSk) :
      ChildMove conf state
        { state with
          pair := state.pair.close .right .child
          child := { state.child with position := .execvp } }
  | becomes
      (last : state.child.position = .execvp) :
      ChildMove conf state
        { state with
          pair := state.pair.exit .child
          child :=
            { state.child with
              position := .application
              started := true } }

/-- A call after which the child only goes on. -/
theorem childMove_onward
    {conf : Nspconf} {state : State} {position : ChildAt}
    (started :
      state.child.position.rank ≤ 12 ∧ 8 < state.child.position.rank ∨
        state.child.position = .unshareNet ∧ position = .unshareUser)
    (onward : position.rank < state.child.position.rank)
    (early : 8 ≤ position.rank) :
    ChildMove conf state (state.atChild position) := by
  apply ChildMove.prepares
  · rcases started with late | ⟨first, _⟩
    · exact Nat.le_trans late.1 (by decide)
    · rw [first]
      decide
  · intro progresses
    have netns : position.rank ≤ 12 → state.child.position.rank ≤ 12 := by
      intro late
      rcases started with before | ⟨_, second⟩
      · exact before.1
      · rw [second] at late
        exact absurd late (by decide)
    constructor
    · intro late alive
      exact progresses.netns (netns late) (by omega)
    all_goals
      intro late
      simp only at late
      omega
  · exact onward
  · exact Nat.le_trans (by decide) early
  · rfl

theorem childStep_moves
    (conf : Nspconf) (state : State) (answer : Answer)
    (moves : state.ChildMoves) :
    ChildMove conf state (state.childStep conf answer) := by
  unfold State.ChildMoves at moves
  unfold State.childStep
  cases position : state.child.position with
  | closePeer => exact .closesPeer position
  | unshareNet =>
      cases answer with
      | ok fd =>
          apply ChildMove.prepares <;> simp only [position, ChildAt.rank]
          · decide
          · intro progresses
            constructor <;> simp [ChildAt.rank]
          · decide
          · decide
      | unsupported => exact .ends _ rfl
      | error =>
          apply childMove_onward <;> simp [position, ChildAt.rank]
  | unshareUser =>
      cases answer with
      | ok fd =>
          apply ChildMove.prepares <;> simp only [position, ChildAt.rank]
          · decide
          · intro progresses
            constructor <;> simp [ChildAt.rank]
          · decide
          · decide
      | unsupported => exact .ends _ rfl
      | error => exact .ends _ rfl
  | mapIds =>
      cases answer with
      | ok fd =>
          apply childMove_onward <;> simp [position, ChildAt.rank]
      | unsupported => exact .ends _ rfl
      | error => exact .ends _ rfl
  | unshareMount =>
      cases answer with
      | ok fd =>
          dsimp only
          split <;>
            apply childMove_onward <;> simp [position, ChildAt.rank]
      | unsupported =>
          apply childMove_onward <;> simp [position, ChildAt.rank]
      | error =>
          apply childMove_onward <;> simp [position, ChildAt.rank]
  | overwriteResolv =>
      cases answer with
      | ok fd =>
          apply ChildMove.prepares <;> simp only [position, ChildAt.rank]
          · decide
          · intro progresses
            have netns := progresses.netns
            simp only [position, ChildAt.rank] at netns
            constructor <;> simp [ChildAt.rank, netns]
          · decide
          · decide
      | unsupported =>
          apply childMove_onward <;> simp [position, ChildAt.rank]
      | error =>
          apply childMove_onward <;> simp [position, ChildAt.rank]
  | overwriteNsswitch =>
      apply childMove_onward <;> simp [position, ChildAt.rank]
  | bringupLoopback =>
      cases answer with
      | ok fd =>
          apply ChildMove.prepares <;> simp only [position, ChildAt.rank]
          · decide
          · intro progresses
            have netns := progresses.netns
            simp only [position, ChildAt.rank] at netns
            constructor <;> simp [ChildAt.rank, netns]
          · decide
          · decide
      | unsupported => exact .ends _ rfl
      | error => exact .ends _ rfl
  | bringupTun =>
      cases answer with
      | ok tunfd =>
          apply ChildMove.prepares <;> simp only [position, ChildAt.rank]
          · decide
          · intro progresses
            have netns := progresses.netns
            have loopback := progresses.loopback
            simp only [position, ChildAt.rank] at netns loopback
            by_cases ipv6 : conf.ipv6 = true
            · constructor <;>
                simp [ChildAt.rank, netns, loopback, ipv6]
            · constructor <;>
                simp [ChildAt.rank, netns, loopback, ipv6]
          · cases conf.ipv6 <;> decide
          · cases conf.ipv6 <;> decide
      | unsupported => exact .ends _ rfl
      | error => exact .ends _ rfl
  | setupIpv6 =>
      cases answer with
      | ok fd =>
          apply ChildMove.prepares <;> simp only [position, ChildAt.rank]
          · decide
          · intro progresses
            have netns := progresses.netns
            have loopback := progresses.loopback
            have tunfd := progresses.tunfd
            simp only [position, ChildAt.rank] at netns loopback tunfd
            constructor <;>
              simp [ChildAt.rank, netns, loopback, tunfd]
          · decide
          · decide
      | unsupported => exact .ends _ rfl
      | error => exact .ends _ rfl
  | sendFd =>
      dsimp only
      split
      · next tunfd made =>
          split
          · exact .ends _ rfl
          · split
            · exact .ends _ rfl
            · next held => exact .sends tunfd position made held
      · exact .ends _ rfl
  | readReady =>
      rw [position] at moves
      dsimp only
      split
      · exact .ends _ rfl
      · cases found : state.pair.read .right with
        | message first =>
            rcases Pair.read_message found with ⟨rest, waiting⟩
            exact .reads first rest position waiting
        | eof => exact .ends _ rfl
        | blocks =>
            have blocks : state.Blocks .child := by
              simp only [State.Blocks, Party.side, found]
            exact absurd blocks moves
  | closeSk => exact .closes position
  | execvp =>
      cases answer with
      | ok fd => exact .becomes position
      | unsupported => exact .ends _ rfl
      | error => exact .ends _ rfl
  | application =>
      rw [position] at moves
      exact moves.elim
  | ended =>
      rw [position] at moves
      exact moves.elim

/-! ## The invariant -/

/-- The parent has written the byte. -/
def Parent.Wrote (parent : Parent) : Prop := parent.position.rank ≤ 2

/-- The child may know that the parent is ready. -/
def State.Told (state : State) : Prop :=
  state.pair.queue .right ≠ [] ∨
    (1 ≤ state.child.position.rank ∧ state.child.position.rank ≤ 3) ∨
      state.child.started = true

/-- Who holds which end. -/
structure State.Holds (state : State) : Prop where
  parentLeft :
    .parent ∈ state.pair.holders .left →
      2 ≤ state.parent.position.rank
  parentRight :
    .parent ∈ state.pair.holders .right →
      state.parent.position = .closePeer
  childLeft :
    .child ∈ state.pair.holders .left → state.child.position = .closePeer
  childRight :
    .child ∈ state.pair.holders .right → 3 ≤ state.child.position.rank

/-- What is under way between the two, and what it says. -/
structure State.Speaks (state : State) : Prop where
  descriptor :
    ∀ message ∈ state.pair.queue .left,
      ∃ tunfd,
        message = .descriptor tunfd ∧ state.child.tunfd = some tunfd
  received :
    ∀ tunfd, state.parent.tunfd = some tunfd →
      state.child.tunfd = some tunfd
  sent :
    7 ≤ state.parent.position.rank →
      1 ≤ state.child.position.rank →
        state.child.position.rank ≤ 4 →
          state.pair.queue .left ≠ []
  late :
    state.pair.queue .left ≠ [] ∨ state.parent.tunfd.isSome = true →
      state.child.position.rank ≤ 4
  told : state.Told → state.parent.Ready ∧ state.parent.Wrote

/-- What the kernel knows of the children while the loop is not running. -/
structure State.Counts (state : State) : Prop where
  alive :
    state.child.position ≠ .ended → state.cid ∈ state.run.kernel.running
  alone :
    state.child.started = false →
      state.run.kernel.running =
        if state.child.position = .ended then [] else [state.cid]
  quiet :
    state.child.started = false → state.child.position ≠ .ended →
      state.run.kernel.zombies = [] ∧
        state.run.kernel.pending = false ∧ state.run.phase = .waiting
  dead :
    ∀ relative ∈ state.run.kernel.zombies, relative.2.exitcode.isSome
  before :
    2 ≤ state.parent.position.rank →
      state.run.phase = .waiting ∧ state.run.reaped = [] ∧
        (state.run.kernel.running ≠ [] ∨ state.run.kernel.zombies ≠ [])
  pending :
    state.parent.position = .closeSk →
      state.run.kernel.zombies ≠ [] → state.run.kernel.pending = true
  looping :
    state.parent.position = .loopRun → loopSystem.Reachable state.run

/-- The invariant of the runs. -/
structure State.Sound (conf : Nspconf) (state : State) : Prop where
  parent : state.parent.Progresses
  child : state.child.Progresses conf
  confined : state.child.started = true → state.child.Confined conf
  unstarted :
    2 ≤ state.child.position.rank → state.child.started = false
  running :
    state.child.position = .application → state.child.started = true
  holds : state.Holds
  speaks : state.Speaks
  counts : state.Counts

theorem sound_forked (conf : Nspconf) (cid : Nat) :
    (State.forked cid).Sound conf where
  parent := by constructor <;> simp [State.forked, ParentAt.rank]
  child := by constructor <;> simp [State.forked, ChildAt.rank]
  confined started := by cases started
  unstarted _ := rfl
  running := by simp [State.forked]
  holds := by
    constructor <;> simp [State.forked, ParentAt.rank, ChildAt.rank]
  speaks := by
    constructor <;>
      simp [State.forked, State.Told, Pair.inherited, ChildAt.rank]
  counts := by
    constructor <;> simp [State.forked, ParentAt.rank]

/-! ## The end of a process -/

theorem State.Sound.parentEnds
    {conf : Nspconf} {state : State} (sound : state.Sound conf)
    (code : Option Nat) :
    (state.parentEnds code).Sound conf where
  parent := by
    constructor <;> simp [State.parentEnds, ParentAt.rank]
  child := sound.child
  confined := sound.confined
  unstarted := sound.unstarted
  running := sound.running
  holds := by
    constructor
    · intro holds
      exact absurd rfl (Pair.mem_holders_exit.mp holds).2
    · intro holds
      exact absurd rfl (Pair.mem_holders_exit.mp holds).2
    · intro holds
      exact sound.holds.childLeft (Pair.mem_holders_exit.mp holds).1
    · intro holds
      exact sound.holds.childRight (Pair.mem_holders_exit.mp holds).1
  speaks := by
    refine ⟨sound.speaks.descriptor, sound.speaks.received, ?_,
      sound.speaks.late, ?_⟩
    · intro early
      simp [State.parentEnds, ParentAt.rank] at early
    · intro told
      exact ⟨(sound.speaks.told told).1.elsewhere _, Nat.zero_le 2⟩
  counts := by
    refine ⟨sound.counts.alive, sound.counts.alone, sound.counts.quiet,
      sound.counts.dead, ?_, ?_, ?_⟩ <;>
      simp [State.parentEnds, ParentAt.rank]

/-- A death which the loop sees is an event of the loop's own runs. -/
theorem reachable_buried
    {state : State} {pid : Nat} {stat : Status}
    (blocked : state.parent.blocked = true)
    (running : pid ∈ state.run.kernel.running)
    (dead : stat.exitcode.isSome)
    (reachable : loopSystem.Reachable state.run) :
    loopSystem.Reachable (state.buried pid stat) := by
  have enabled : loopSystem.enabled state.run (.die pid stat) :=
    ⟨running, dead⟩
  apply System.Reachable.next reachable enabled
  simp [loopSystem, Run.step, State.buried, blocked]

theorem State.Sound.childEnds
    {conf : Nspconf} {state : State} (sound : state.Sound conf)
    (alive : state.child.position ≠ .ended)
    {stat : Status} (dead : stat.exitcode.isSome) :
    (state.childEnds stat).Sound conf where
  parent := sound.parent
  child := by
    constructor <;> simp [State.childEnds, ChildAt.rank]
  confined := fun started => (sound.confined started).elsewhere _
  unstarted := by simp [State.childEnds, ChildAt.rank]
  running := by simp [State.childEnds]
  holds := by
    constructor
    · intro holds
      exact sound.holds.parentLeft (Pair.mem_holders_exit.mp holds).1
    · intro holds
      exact sound.holds.parentRight (Pair.mem_holders_exit.mp holds).1
    · intro holds
      exact absurd rfl (Pair.mem_holders_exit.mp holds).2
    · intro holds
      exact absurd rfl (Pair.mem_holders_exit.mp holds).2
  speaks := by
    refine ⟨sound.speaks.descriptor, sound.speaks.received, ?_, ?_, ?_⟩
    · intro _ alive
      simp [State.childEnds, ChildAt.rank] at alive
    · simp [State.childEnds, ChildAt.rank]
    · intro told
      apply sound.speaks.told
      rcases told with waiting | ⟨present, _⟩ | started
      · exact Or.inl waiting
      · simp [State.childEnds, ChildAt.rank] at present
      · exact Or.inr (Or.inr started)
  counts := by
    refine ⟨?_, ?_, ?_, ?_, ?_, ?_, ?_⟩
    · intro present
      exact absurd rfl present
    · intro unstarted
      have alone := sound.counts.alone unstarted
      rw [if_neg alive] at alone
      simp [State.childEnds, State.buried, alone]
    · intro _ present
      exact absurd rfl present
    · intro relative member
      rcases List.mem_append.mp member with old | new
      · exact sound.counts.dead relative old
      · rw [List.mem_singleton.mp new]
        exact dead
    · intro early
      have before := sound.counts.before early
      exact
        ⟨before.1, before.2.1,
          Or.inr (by simp [State.childEnds, State.buried])⟩
    · intro closing _
      have blocked : state.parent.blocked = true := by
        apply sound.parent.blocked <;>
          simp [show state.parent.position = .closeSk from closing,
            ParentAt.rank]
      simp [State.childEnds, State.buried, blocked]
    · intro looping
      have blocked : state.parent.blocked = true := by
        apply sound.parent.blocked <;>
          simp [show state.parent.position = .loopRun from looping,
            ParentAt.rank]
      exact reachable_buried blocked (sound.counts.alive alive) dead
        (sound.counts.looping looping)

/-! ## The calls of the parent -/

/-- Before the byte was written, the child cannot know of it. -/
theorem State.Sound.untold
    {conf : Nspconf} {state : State} (sound : state.Sound conf)
    (early : 3 ≤ state.parent.position.rank) : ¬ state.Told := by
  intro told
  have wrote := (sound.speaks.told told).2
  exact absurd (Nat.le_trans early wrote) (by decide)

/-- An untold child has not become the application. -/
theorem State.unstarted_of_untold
    {state : State} (untold : ¬ state.Told) :
    state.child.started = false := by
  cases started : state.child.started with
  | false => rfl
  | true => exact absurd (Or.inr (Or.inr started)) untold

/-- The counts, while the parent goes on to its loop. -/
theorem State.Counts.onward
    {state : State} (counts : state.Counts)
    (before : 2 ≤ state.parent.position.rank)
    (pair : Pair Party Message) {parent : Parent}
    (closing :
      parent.position = .closeSk →
        state.run.kernel.zombies ≠ [] → state.run.kernel.pending = true)
    (looping :
      parent.position = .loopRun → loopSystem.Reachable state.run) :
    { state with pair := pair, parent := parent }.Counts :=
  ⟨counts.alive, counts.alone, counts.quiet, counts.dead,
    fun _ => counts.before before, closing, looping⟩

theorem State.Sound.closesPeer
    {conf : Nspconf} {state : State} (sound : state.Sound conf)
    (first : state.parent.position = .closePeer) :
    { state with
      pair := state.pair.close .right .parent
      parent := { state.parent with position := .recvFd } }.Sound conf := by
  have rank : state.parent.position.rank = 8 := by
    rw [first]
    rfl
  refine ⟨?_, sound.child, sound.confined, sound.unstarted,
    sound.running, ?_, ?_, ?_⟩
  · constructor <;> simp [ParentAt.rank]
  · constructor <;> simp only [Pair.mem_holders_close]
    · intro _
      decide
    · intro holds
      simp at holds
    · intro holds
      exact sound.holds.childLeft holds.1
    · intro holds
      exact sound.holds.childRight holds.1
  · refine ⟨sound.speaks.descriptor, sound.speaks.received, ?_,
      sound.speaks.late, ?_⟩
    · intro _
      exact sound.speaks.sent (by omega)
    · intro told
      exact absurd told (sound.untold (by omega))
  · apply sound.counts.onward (by omega) <;> simp

/-- The descriptor which is received is the one which the child made. -/
theorem State.Sound.receives
    {conf : Nspconf} {state : State} (sound : state.Sound conf)
    {tunfd : Nat} {rest : List Message}
    (receiving : state.parent.position = .recvFd)
    (waiting : state.pair.queue .left = .descriptor tunfd :: rest) :
    { state with
      pair := state.pair.consume .left
      parent :=
        { state.parent with
          position := .setupSignalfd
          tunfd := some tunfd } }.Sound conf := by
  have rank : state.parent.position.rank = 7 := by
    rw [receiving]
    rfl
  have front : Message.descriptor tunfd ∈ state.pair.queue .left := by
    rw [waiting]
    exact List.mem_cons_self
  refine ⟨?_, sound.child, sound.confined, sound.unstarted,
    sound.running, ?_, ?_, ?_⟩
  · constructor <;> simp [ParentAt.rank]
  · constructor <;> simp only [Pair.holders_consume]
    · intro _
      decide
    · intro holds
      have closed := sound.holds.parentRight holds
      rw [receiving] at closed
      cases closed
    · exact sound.holds.childLeft
    · exact sound.holds.childRight
  · refine ⟨?_, ?_, ?_, ?_, ?_⟩
    · intro message member
      apply sound.speaks.descriptor
      rw [waiting]
      simp only [Pair.consume, waiting] at member
      exact List.mem_cons_of_mem _ member
    · intro other same
      cases same
      rcases sound.speaks.descriptor _ front with ⟨made, equal, child⟩
      cases equal
      exact child
    · intro early
      simp [ParentAt.rank] at early
    · intro _
      exact sound.speaks.late (Or.inl (List.ne_nil_of_mem front))
    · intro told
      exact absurd told (sound.untold (by omega))
  · apply sound.counts.onward (by omega) <;> simp

theorem State.Sound.parentPrepares
    {conf : Nspconf} {state : State} (sound : state.Sound conf)
    {parent : Parent}
    (started : state.parent.position.rank ≤ 6)
    (progresses : parent.Progresses)
    (onward : parent.position.rank + 1 = state.parent.position.rank)
    (early : 3 ≤ parent.position.rank)
    (tunfd : parent.tunfd = state.parent.tunfd) :
    { state with parent := parent }.Sound conf := by
  refine ⟨progresses, sound.child, sound.confined, sound.unstarted,
    sound.running, ?_, ?_, ?_⟩
  · refine ⟨?_, ?_, sound.holds.childLeft, sound.holds.childRight⟩
    · intro _
      exact Nat.le_trans (by decide) early
    · intro holds
      have closed := sound.holds.parentRight holds
      rw [closed] at started
      exact absurd started (by decide)
  · refine ⟨sound.speaks.descriptor, ?_, ?_, ?_, ?_⟩
    · rw [tunfd]
      exact sound.speaks.received
    · intro first
      simp only at first
      omega
    · rw [tunfd]
      exact sound.speaks.late
    · intro told
      exact absurd told (sound.untold (by omega))
  · apply sound.counts.onward (by omega)
    · intro closing
      rw [closing] at early
      exact absurd early (by decide)
    · intro looping
      rw [looping] at early
      exact absurd early (by decide)

/--
The byte is written while the child lives, so no death went unnoticed until
then.
-/
theorem State.Sound.writes
    {conf : Nspconf} {state : State} (sound : state.Sound conf)
    (writing : state.parent.position = .writeReady)
    (held : ¬ state.pair.HungUp .left) :
    { state with
      pair := state.pair.write .left .ready
      parent := { state.parent with position := .closeSk } }.Sound conf := by
  have rank : state.parent.position.rank = 3 := by
    rw [writing]
    rfl
  have untold := sound.untold (by omega)
  have alive : state.child.position ≠ .ended := by
    intro ended
    apply held
    rw [Pair.hungUp_iff]
    intro holder holds
    cases holder with
    | parent =>
        have closed := sound.holds.parentRight holds
        rw [writing] at closed
        cases closed
    | child =>
        have open_ := sound.holds.childRight holds
        rw [ended] at open_
        exact absurd open_ (by decide)
  have ready := sound.parent.ready (by omega) (by omega)
  refine ⟨?_, sound.child, sound.confined, sound.unstarted,
    sound.running, ?_, ?_, ?_⟩
  · constructor <;> intro _ _
    · exact ready.tunfd
    · exact ready.blocked
    · exact ready.loop
    · exact ready.core
  · constructor <;> simp only [Pair.holders_write]
    · intro _
      decide
    · intro holds
      have closed := sound.holds.parentRight holds
      rw [writing] at closed
      cases closed
    · exact sound.holds.childLeft
    · exact sound.holds.childRight
  · refine ⟨sound.speaks.descriptor, sound.speaks.received, ?_,
      sound.speaks.late, ?_⟩
    · intro early
      simp [ParentAt.rank] at early
    · intro _
      exact ⟨ready.elsewhere _, Nat.le_refl 2⟩
  · have quiet :=
      sound.counts.quiet (State.unstarted_of_untold untold) alive
    apply sound.counts.onward (by omega)
    · intro _ zombie
      exact absurd quiet.1 zombie
    · simp

/-- When the parent comes to its loop, no signal of a child was lost. -/
theorem State.Sound.closes
    {conf : Nspconf} {state : State} (sound : state.Sound conf)
    (closing : state.parent.position = .closeSk) :
    { state with
      pair := state.pair.close .left .parent
      parent := { state.parent with position := .loopRun } }.Sound
        conf := by
  have rank : state.parent.position.rank = 2 := by
    rw [closing]
    rfl
  have ready := sound.parent.ready (by omega) (by omega)
  refine ⟨?_, sound.child, sound.confined, sound.unstarted,
    sound.running, ?_, ?_, ?_⟩
  · constructor <;> intro _ _
    · exact ready.tunfd
    · exact ready.blocked
    · exact ready.loop
    · exact ready.core
  · constructor <;> simp only [Pair.mem_holders_close]
    · intro holds
      simp at holds
    · intro holds
      have closed := sound.holds.parentRight holds.1
      rw [closing] at closed
      cases closed
    · intro holds
      exact sound.holds.childLeft holds.1
    · intro holds
      exact sound.holds.childRight holds.1
  · refine ⟨sound.speaks.descriptor, sound.speaks.received, ?_,
      sound.speaks.late, ?_⟩
    · intro early
      simp [ParentAt.rank] at early
    · intro told
      exact ⟨ready.elsewhere _, by simp [Parent.Wrote, ParentAt.rank]⟩
  · apply sound.counts.onward (by omega)
    · simp
    · intro _
      have before := sound.counts.before (by omega)
      apply System.Reachable.start
      exact
        { phase := before.1
          child := before.2.2
          pending := sound.counts.pending closing
          dead := sound.counts.dead
          reaped := before.2.1 }

theorem State.Sound.parentMove
    {conf : Nspconf} {state next : State} (sound : state.Sound conf)
    (move : ParentMove state next) : next.Sound conf := by
  cases move with
  | ends code => exact sound.parentEnds code
  | closesPeer first => exact sound.closesPeer first
  | receives tunfd rest receiving waiting =>
      exact sound.receives receiving waiting
  | prepares parent started progresses onward early tunfd =>
      exact sound.parentPrepares started (progresses sound.parent) onward
        early tunfd
  | writes writing held => exact sound.writes writing held
  | closes closing => exact sound.closes closing

/-! ## The calls of the child -/

/-- The counts, while the child lives on. -/
theorem State.Counts.survives
    {state : State} (counts : state.Counts)
    (alive : state.child.position ≠ .ended)
    (pair : Pair Party Message) {child : Child}
    (still : child.position ≠ .ended)
    (started : child.started = false → state.child.started = false) :
    { state with pair := pair, child := child }.Counts := by
  refine ⟨fun _ => counts.alive alive, ?_, ?_, counts.dead, counts.before,
    counts.pending, counts.looping⟩
  · intro unstarted
    have alone := counts.alone (started unstarted)
    rw [if_neg alive] at alone
    simp only [if_neg still]
    exact alone
  · intro unstarted _
    exact counts.quiet (started unstarted) alive

theorem State.Sound.childCloses
    {conf : Nspconf} {state : State} (sound : state.Sound conf)
    (first : state.child.position = .closePeer) :
    { state with
      pair := state.pair.close .left .child
      child :=
        { state.child with position := .unshareNet } }.Sound conf := by
  have rank : state.child.position.rank = 15 := by
    rw [first]
    rfl
  have alive : state.child.position ≠ .ended := by simp [first]
  have unstarted := sound.unstarted (by omega)
  refine ⟨sound.parent, ?_, ?_, fun _ => unstarted, by simp, ?_, ?_, ?_⟩
  · constructor <;> simp [ChildAt.rank]
  · intro started
    exact (sound.confined started).elsewhere _
  · constructor <;> simp only [Pair.mem_holders_close]
    · intro holds
      exact sound.holds.parentLeft holds.1
    · intro holds
      exact sound.holds.parentRight holds.1
    · intro holds
      simp at holds
    · intro _
      decide
  · refine ⟨sound.speaks.descriptor, sound.speaks.received, ?_, ?_, ?_⟩
    · intro _ _ late
      simp [ChildAt.rank] at late
    · intro late
      have sent := sound.speaks.late late
      omega
    · intro told
      apply sound.speaks.told
      rcases told with waiting | ⟨_, late⟩ | started
      · exact Or.inl waiting
      · simp [ChildAt.rank] at late
      · exact Or.inr (Or.inr started)
  · exact sound.counts.survives alive _ (by simp) id

theorem State.Sound.childPrepares
    {conf : Nspconf} {state : State} (sound : state.Sound conf)
    {child : Child}
    (started : state.child.position.rank ≤ 14)
    (progresses : child.Progresses conf)
    (onward : child.position.rank < state.child.position.rank)
    (early : 5 ≤ child.position.rank)
    (kept : child.started = state.child.started) :
    { state with child := child }.Sound conf := by
  have alive : state.child.position ≠ .ended := by
    intro ended
    rw [ended] at onward
    exact absurd onward (Nat.not_lt_zero _)
  have still : child.position ≠ .ended := by
    intro ended
    rw [ended] at early
    exact absurd early (by decide)
  have unstarted := sound.unstarted (by omega)
  have nothing :
      ¬ (state.pair.queue .left ≠ [] ∨
        state.parent.tunfd.isSome = true) := by
    intro late
    have sent := sound.speaks.late late
    omega
  have empty : state.pair.queue .left = [] := by
    by_contra waiting
    exact nothing (Or.inl waiting)
  have unreceived : state.parent.tunfd = none := by
    cases received : state.parent.tunfd with
    | none => rfl
    | some tunfd => exact absurd (Or.inr (by simp [received])) nothing
  refine ⟨sound.parent, progresses, ?_, ?_, ?_, ?_, ?_, ?_⟩
  · intro running
    simp only [kept, unstarted] at running
    cases running
  · intro _
    exact kept.trans unstarted
  · intro application
    simp only at application
    rw [application] at early
    exact absurd early (by decide)
  · refine ⟨sound.holds.parentLeft, sound.holds.parentRight, ?_, ?_⟩
    · intro holds
      have first := sound.holds.childLeft holds
      rw [first] at started
      exact absurd started (by decide)
    · intro _
      exact Nat.le_trans (by decide) early
  · constructor
    · intro message member
      rw [empty] at member
      cases member
    · intro tunfd received
      rw [unreceived] at received
      cases received
    · intro _ _ late
      simp only at late
      omega
    · intro late
      exact absurd late nothing
    · intro told
      apply sound.speaks.told
      rcases told with waiting | ⟨_, late⟩ | running
      · exact Or.inl waiting
      · simp only at late
        omega
      · simp only [kept, unstarted] at running
        cases running
  · apply sound.counts.survives alive _ still
    intro _
    exact unstarted

theorem State.Sound.sends
    {conf : Nspconf} {state : State} (sound : state.Sound conf)
    {tunfd : Nat}
    (sending : state.child.position = .sendFd)
    (made : state.child.tunfd = some tunfd) :
    { state with
      pair := state.pair.write .right (.descriptor tunfd)
      child :=
        { state.child with position := .readReady } }.Sound conf := by
  have rank : state.child.position.rank = 5 := by
    rw [sending]
    rfl
  have alive : state.child.position ≠ .ended := by simp [sending]
  have unstarted := sound.unstarted (by omega)
  have confined := sound.child.confined (by omega) (by omega)
  refine ⟨sound.parent, ?_, ?_, fun _ => unstarted, by simp, ?_, ?_, ?_⟩
  · constructor <;> intro _ _
    · exact confined.netns
    · exact confined.loopback
    · exact confined.tunfd
    · exact confined.ipv6
  · intro _
    exact confined.elsewhere _
  · refine ⟨sound.holds.parentLeft, sound.holds.parentRight, ?_, ?_⟩
    · intro holds
      have first := sound.holds.childLeft holds
      rw [sending] at first
      cases first
    · simp [ChildAt.rank]
  · constructor
    · intro message member
      rcases List.mem_append.mp member with old | new
      · exact sound.speaks.descriptor message old
      · exact ⟨tunfd, List.mem_singleton.mp new, made⟩
    · exact sound.speaks.received
    · intro _ _ _
      simp [Pair.write, Side.other]
    · simp [ChildAt.rank]
    · intro told
      apply sound.speaks.told
      rcases told with waiting | ⟨_, late⟩ | started
      · exact Or.inl waiting
      · simp [ChildAt.rank] at late
      · exact Or.inr (Or.inr started)
  · exact sound.counts.survives alive _ (by simp) id

/-- Behind the byte the child only closes its end and calls `execvp`. -/
theorem State.Sound.childOnward
    {conf : Nspconf} {state : State} (sound : state.Sound conf)
    {pair : Pair Party Message} {child : Child}
    (told : state.Told)
    (alive : 2 ≤ state.child.position.rank)
    (late : state.child.position.rank ≤ 4)
    (onward : child.position.rank + 1 = state.child.position.rank)
    (started :
      child.started = true ↔ child.position = .application)
    (same :
      child.netns = state.child.netns ∧
        child.loopback = state.child.loopback ∧
          child.tunfd = state.child.tunfd ∧
            child.ipv6 = state.child.ipv6)
    (holders :
      ∀ side holder, holder ∈ pair.holders side →
        holder ∈ state.pair.holders side)
    (released :
      .child ∈ pair.holders .right → 3 ≤ child.position.rank)
    (queue : pair.queue .left = state.pair.queue .left) :
    { state with pair := pair, child := child }.Sound conf := by
  have ready := sound.speaks.told told
  have confined := sound.child.confined (by omega) (by omega)
  have next : child.Confined conf :=
    ⟨same.1.trans confined.netns, same.2.1.trans confined.loopback,
      same.2.2.1 ▸ confined.tunfd,
      fun ipv6 => same.2.2.2.trans (confined.ipv6 ipv6)⟩
  have unstarted := sound.unstarted alive
  refine ⟨sound.parent, ?_, fun _ => next, ?_, started.mpr, ?_, ?_, ?_⟩
  · exact
      ⟨fun _ _ => next.netns, fun _ _ => next.loopback,
        fun _ _ => next.tunfd, fun _ _ => next.ipv6⟩
  · intro early
    by_contra running
    have application := started.mp (by simpa using running)
    simp only [application, ChildAt.rank] at early
    omega
  · refine ⟨?_, ?_, ?_, released⟩
    · intro holds
      exact sound.holds.parentLeft (holders _ _ holds)
    · intro holds
      exact sound.holds.parentRight (holders _ _ holds)
    · intro holds
      have first := sound.holds.childLeft (holders _ _ holds)
      rw [first] at late
      exact absurd late (by decide)
  · refine ⟨?_, ?_, ?_, ?_, fun _ => ready⟩
    · simp only [queue, same.2.2.1]
      exact sound.speaks.descriptor
    · simp only [same.2.2.1]
      exact sound.speaks.received
    · intro early _ _
      simp only [queue]
      exact sound.speaks.sent early (by omega) late
    · intro _
      show child.position.rank ≤ 4
      omega
  · apply sound.counts.survives
    · intro ended
      rw [ended] at alive
      exact absurd alive (by decide)
    · intro ended
      rw [ended] at onward
      have last : 0 + 1 = state.child.position.rank := onward
      omega
    · intro _
      exact unstarted

theorem State.Sound.childMove
    {conf : Nspconf} {state next : State} (sound : state.Sound conf)
    (alive : state.child.position ≠ .ended)
    (move : ChildMove conf state next) : next.Sound conf := by
  cases move with
  | ends stat dead => exact sound.childEnds alive dead
  | closesPeer first => exact sound.childCloses first
  | prepares child started progresses onward early unstarted =>
      exact sound.childPrepares started (progresses sound.child) onward
        early unstarted
  | sends tunfd sending made held => exact sound.sends sending made
  | reads first rest reading waiting =>
      have unstarted := sound.unstarted (by simp [reading, ChildAt.rank])
      apply sound.childOnward
      · exact Or.inl (by simp [waiting])
      all_goals simp [reading, ChildAt.rank, unstarted, Pair.consume]
  | closes closing =>
      have unstarted := sound.unstarted (by simp [closing, ChildAt.rank])
      apply sound.childOnward
      · exact Or.inr (Or.inl (by simp [closing, ChildAt.rank]))
      all_goals simp +contextual [closing, ChildAt.rank, unstarted]
  | becomes last =>
      apply sound.childOnward
      · exact Or.inr (Or.inl (by simp [last, ChildAt.rank]))
      all_goals simp +contextual [last, ChildAt.rank]

/-! ## The loop and the family -/

/-- The calls of the loop reap children and make none. -/
theorem keeps_ofLoop
    {run : Run} {event : Loop.Children.Event} (own : ofLoop event = true) :
    (run.step event).kernel.running = run.kernel.running ∧
      ∀ relative ∈ (run.step event).kernel.zombies,
        relative ∈ run.kernel.zombies := by
  cases event with
  | fork pid => cases own
  | die pid stat => cases own
  | stop => cases own
  | readSignal => exact ⟨rfl, fun _ member => member⟩
  | waitpid pick =>
      cases phase : run.phase.current with
      | none =>
          simp only [Run.step, phase]
          exact ⟨trivial, fun _ member => member⟩
      | some exitcode =>
          simp only [Run.step, phase, Run.reap]
          by_cases dead : run.kernel.zombies = []
          · have waited := Kernel.waitpid_none dead pick
            by_cases alone : run.kernel.running = []
            · rw [if_pos alone] at waited
              simp only [waited]
              exact ⟨trivial, fun _ member => member⟩
            · rw [if_neg alone] at waited
              simp only [waited]
              exact ⟨trivial, fun _ member => member⟩
          · rcases Kernel.waitpid_zombies dead pick with
              ⟨pid, stat, left, waited, _, _, rest⟩
            simp only [waited]
            exact ⟨trivial, rest⟩

/-- While the child prepares, the loop has nothing to do. -/
theorem State.Counts.idle
    {state : State} (counts : state.Counts)
    (unstarted : state.child.started = false)
    (alive : state.child.position ≠ .ended)
    {event : Loop.Children.Event} :
    ¬ (ofLoop event = true ∧ state.run.enabled event) := by
  rintro ⟨own, permitted⟩
  have quiet := counts.quiet unstarted alive
  cases event with
  | fork pid => cases own
  | die pid stat => cases own
  | stop => cases own
  | readSignal =>
      have pending := permitted.2
      rw [quiet.2.1] at pending
      cases pending
  | waitpid pick =>
      simp [Run.enabled, quiet.2.2, Loop.Children.Phase.current]
        at permitted

/-- A change among the children concerns only what is known of them. -/
theorem State.Sound.rerun
    {conf : Nspconf} {state : State} (sound : state.Sound conf)
    {run : Run} (counts : { state with run := run }.Counts) :
    { state with run := run }.Sound conf where
  parent := sound.parent
  child := sound.child
  confined := sound.confined
  unstarted := sound.unstarted
  running := sound.running
  holds :=
    ⟨sound.holds.parentLeft, sound.holds.parentRight,
      sound.holds.childLeft, sound.holds.childRight⟩
  speaks :=
    ⟨sound.speaks.descriptor, sound.speaks.received, sound.speaks.sent,
      sound.speaks.late, sound.speaks.told⟩
  counts := counts

theorem State.Sound.loop
    {conf : Nspconf} {state : State} (sound : state.Sound conf)
    {event : Loop.Children.Event}
    (looping : state.parent.position = .loopRun)
    (own : ofLoop event = true)
    (permitted : state.run.enabled event) :
    { state with run := state.run.step event }.Sound conf := by
  have keeps :
      (state.run.step event).kernel.running = state.run.kernel.running ∧
        ∀ relative ∈ (state.run.step event).kernel.zombies,
          relative ∈ state.run.kernel.zombies :=
    keeps_ofLoop own
  apply sound.rerun
  refine ⟨?_, ?_, ?_, ?_, ?_, ?_, ?_⟩
  · intro alive
    simp only [keeps.1]
    exact sound.counts.alive alive
  · simp only [keeps.1]
    exact sound.counts.alone
  · intro unstarted alive
    exact (sound.counts.idle unstarted alive ⟨own, permitted⟩).elim
  · intro relative member
    exact sound.counts.dead relative (keeps.2 relative member)
  · intro early
    simp [looping, ParentAt.rank] at early
  · intro closing
    simp [looping] at closing
  · intro _
    exact .next (sound.counts.looping looping) permitted rfl

/-- The relatives of the application die and stop while the loop is ready. -/
theorem State.Sound.family
    {conf : Nspconf} {state : State} (sound : state.Sound conf)
    {event : Loop.Children.Event}
    (started : state.child.started = true)
    (permitted : state.mayHappen event) :
    (state.relatives event).Sound conf := by
  have told := sound.speaks.told (Or.inr (Or.inr started))
  have blocked := told.1.blocked
  have after : ∀ unstarted : state.child.started = false, False := by
    intro unstarted
    rw [started] at unstarted
    cases unstarted
  cases event with
  | fork pid =>
      apply sound.rerun
      refine ⟨?_, fun unstarted => (after unstarted).elim,
        fun unstarted => (after unstarted).elim, sound.counts.dead, ?_,
        sound.counts.pending, ?_⟩
      · intro alive
        exact List.mem_cons_of_mem _ (sound.counts.alive alive)
      · intro early
        have before := sound.counts.before early
        exact ⟨before.1, before.2.1, Or.inl (List.cons_ne_nil _ _)⟩
      · intro looping
        have reachable := sound.counts.looping looping
        have enabled : loopSystem.enabled state.run (.fork pid) :=
          permitted.1
        exact .next reachable enabled rfl
  | die pid stat =>
      apply sound.rerun
      refine ⟨?_, fun unstarted => (after unstarted).elim,
        fun unstarted => (after unstarted).elim, ?_, ?_, ?_, ?_⟩
      · intro alive
        have other : state.cid ≠ pid := by
          intro same
          exact alive (permitted.2.2 same.symm)
        exact (List.mem_erase_of_ne other).mpr (sound.counts.alive alive)
      · intro relative member
        rcases List.mem_append.mp member with old | new
        · exact sound.counts.dead relative old
        · rw [List.mem_singleton.mp new]
          exact permitted.2.1
      · intro early
        have before := sound.counts.before early
        exact ⟨before.1, before.2.1, Or.inr (by simp [State.buried])⟩
      · intro _ _
        simp [State.buried, blocked]
      · intro looping
        exact reachable_buried blocked permitted.1 permitted.2.1
          (sound.counts.looping looping)
  | stop =>
      apply sound.rerun
      refine ⟨sound.counts.alive, fun unstarted => (after unstarted).elim,
        fun unstarted => (after unstarted).elim, sound.counts.dead,
        sound.counts.before, ?_, ?_⟩
      · intro _ _
        simp [blocked]
      · intro looping
        have reachable := sound.counts.looping looping
        have enabled : loopSystem.enabled state.run .stop := permitted
        apply System.Reachable.next reachable enabled
        simp [loopSystem, Run.step, blocked]
  | readSignal => exact permitted.elim
  | waitpid pick => exact permitted.elim

/-- Every event keeps the invariant. -/
theorem State.Sound.step
    {conf : Nspconf} {state : State} (sound : state.Sound conf)
    {event : Event} (permitted : state.enabled event) :
    (state.step conf event).Sound conf := by
  cases event with
  | parent answer =>
      exact sound.parentMove (parentStep_moves state answer permitted)
  | child answer =>
      apply sound.childMove
      · intro ended
        simp [State.enabled, State.ChildMoves, ended] at permitted
      · exact childStep_moves conf state answer permitted
  | loop event => exact sound.loop permitted.1 permitted.2.1 permitted.2.2
  | finish =>
      rcases permitted.2 with ⟨code, returned⟩
      simp only [State.step, returned]
      exact sound.parentEnds _
  | family event => exact sound.family permitted.1 permitted.2
  | childDies stat => exact sound.childEnds permitted.1 permitted.2
  | parentDies => exact sound.parentEnds _

theorem sound_of_reachable
    {conf : Nspconf} {state : State}
    (reachable : (startSystem conf).Reachable state) :
    state.Sound conf := by
  apply reachable.invariant
  · rintro first ⟨cid, rfl⟩
    exact sound_forked conf cid
  · intro source event target sound permitted handled
    cases handled
    exact sound.step permitted

end Nsproxy.Process.Startup
