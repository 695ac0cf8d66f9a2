import Nsproxy.Conf
import Nsproxy.Lib.SocketPair
import Nsproxy.Loop.Children

/-!
# How the two processes start

`main` forks over a pair of connected sockets.  The child enters a network
namespace, makes the TUN device there, sends its descriptor, and waits for a
byte before it becomes the application.  The parent receives the descriptor,
blocks `SIGCHLD`, sets up the event loop and the core, sends the byte, and
runs the loop.

Each call of the kernel has an answer, and each process may be killed between
any two calls.  A process which gives up exits, and its end of the pair is
closed with it; this is how the other process learns of it.  A write at an
end which is hung up raises `SIGPIPE`, which kills the writer; where it was
inherited as ignored, the call fails like any other.

The signal of a child which dies before `SIGCHLD` is blocked is lost.
-/

namespace Nsproxy.Process.Startup

open Nsproxy.Conf
open Nsproxy.Lib.SocketPair
open Nsproxy.Lib.Transition
open Nsproxy.Loop.Children (Kernel Status Run loopSystem LastReaped)

/-! ## The parent -/

inductive Party where
  | parent
  | child
deriving DecidableEq, Repr

/-- What goes over the pair: a descriptor by `send_fd`, and the last byte. -/
inductive Message where
  | descriptor (tunfd : Nat)
  | ready
deriving DecidableEq, Repr

/-- The answers of the kernel; `ok` has the descriptor which was made. -/
inductive Answer where
  | ok (fd : Nat)
  /-- `ENOSYS` or `EINVAL`. -/
  | unsupported
  | error
deriving DecidableEq, Repr

/-- The call which the parent makes next. -/
inductive ParentAt where
  | closePeer
  | recvFd
  | setupSignalfd
  | loopInit
  | coreInit
  | writeReady
  | closeSk
  | loopRun
  /-- The exit code, unless the parent was killed. -/
  | ended (code : Option Nat)
deriving DecidableEq, Repr

/-- `parent`, with what it has set up. -/
structure Parent where
  position : ParentAt
  tunfd : Option Nat
  /-- `SIGCHLD` is blocked, and `sigfd` reads it. -/
  blocked : Bool
  loop : Bool
  /-- The descriptor which the core reads packets from. -/
  core : Option Nat
deriving DecidableEq, Repr

/-- `EXIT_FAILURE`. -/
def exitFailure : Nat := 1

/-! ## The child -/

/-- The call which the child makes next. -/
inductive ChildAt where
  | closePeer
  | unshareNet
  | unshareUser
  | mapIds
  | unshareMount
  | overwriteResolv
  | overwriteNsswitch
  | bringupLoopback
  | bringupTun
  | setupIpv6
  | sendFd
  | readReady
  | closeSk
  | execvp
  /-- The application runs. -/
  | application
  | ended
deriving DecidableEq, Repr

/-- `child`, with what it has set up. -/
structure Child where
  position : ChildAt
  netns : Bool
  resolvConf : Bool
  loopback : Bool
  tunfd : Option Nat
  ipv6 : Bool
  /-- `execvp` succeeded, whatever became of the application since. -/
  started : Bool
deriving DecidableEq, Repr

/-! ## Both of them -/

/--
The state of a start.  `run` has the children of the parent and its loop; the
process number of the child is `cid`.
-/
structure State where
  pair : Pair Party Message
  parent : Parent
  child : Child
  cid : Nat
  run : Run

/-- The parent holds the left end, the child the right one. -/
def Party.side : Party → Side
  | .parent => .left
  | .child => .right

namespace State

def atParent (state : State) (position : ParentAt) : State :=
  { state with parent := { state.parent with position := position } }

def atChild (state : State) (position : ChildAt) : State :=
  { state with child := { state.child with position := position } }

/-- The parent is gone. -/
def parentEnds (state : State) (code : Option Nat) : State :=
  { state with
    parent := { state.parent with position := .ended code }
    pair := state.pair.exit .parent }

/-- A child of the parent dies; a blocked signal becomes pending. -/
def buried (state : State) (pid : Nat) (stat : Status) : Run :=
  { state.run with
    kernel :=
      { running := state.run.kernel.running.erase pid
        zombies := state.run.kernel.zombies ++ [(pid, stat)]
        pending := state.parent.blocked || state.run.kernel.pending } }

/-- The child is gone. -/
def childEnds (state : State) (stat : Status) : State :=
  { state with
    child := { state.child with position := .ended }
    pair := state.pair.exit .child
    run := state.buried state.cid stat }

/-- How `waitpid` reports a child which `SIGPIPE` has killed. -/
def sigpipe : Status := .signaled ⟨13, by decide⟩

/-- `exit(EXIT_FAILURE)` in the child. -/
def childFails (state : State) : State :=
  state.childEnds (.exited 1#8)

/-- `exit(EXIT_FAILURE)` in the parent. -/
def parentFails (state : State) : State :=
  state.parentEnds (some exitFailure)

/-- The next call of the parent, up to its loop. -/
def parentStep (state : State) (answer : Answer) : State :=
  match state.parent.position with
  | .closePeer =>
      { state with pair := state.pair.close .right .parent }.atParent .recvFd
  | .recvFd =>
      if answer = .error then
        state.parentFails
      else
        match state.pair.read .left with
        | .message (.descriptor tunfd) =>
            { state with
              pair := state.pair.consume .left
              parent := { state.parent with
                position := .setupSignalfd
                tunfd := some tunfd } }
        | .message .ready => state.parentFails
        | .eof => state.parentFails
        | .blocks => state
  | .setupSignalfd =>
      match answer with
      | .ok _ =>
          { state with parent := { state.parent with
              position := .loopInit
              blocked := true } }
      | _ => state.parentFails
  | .loopInit =>
      match answer with
      | .ok _ =>
          { state with parent := { state.parent with
              position := .coreInit
              loop := true } }
      | _ => state.parentFails
  | .coreInit =>
      match answer with
      | .ok _ =>
          { state with parent := { state.parent with
              position := .writeReady
              core := state.parent.tunfd } }
      | _ => state.parentFails
  | .writeReady =>
      if answer = .error then
        state.parentFails
      else if state.pair.HungUp .left then
        state.parentEnds none
      else
        { state with pair := state.pair.write .left .ready }.atParent .closeSk
  | .closeSk =>
      { state with pair := state.pair.close .left .parent }.atParent .loopRun
  | .loopRun => state
  | .ended _ => state

/-- The next call of the child, until it becomes the application. -/
def childStep (conf : Nspconf) (state : State) (answer : Answer) :
    State :=
  match state.child.position with
  | .closePeer =>
      { state with pair := state.pair.close .left .child }.atChild .unshareNet
  | .unshareNet =>
      match answer with
      | .ok _ =>
          { state with child := { state.child with
              position := .unshareMount
              netns := true } }
      | .unsupported => state.childFails
      | .error => state.atChild .unshareUser
  | .unshareUser =>
      match answer with
      | .ok _ =>
          { state with child := { state.child with
              position := .mapIds
              netns := true } }
      | _ => state.childFails
  | .mapIds =>
      match answer with
      | .ok _ => state.atChild .unshareMount
      | _ => state.childFails
  | .unshareMount =>
      match answer with
      | .ok _ =>
          if conf.dnstype = .off then
            state.atChild .bringupLoopback
          else
            state.atChild .overwriteResolv
      | _ => state.atChild .bringupLoopback
  | .overwriteResolv =>
      match answer with
      | .ok _ =>
          { state with child := { state.child with
              position := .overwriteNsswitch
              resolvConf := true } }
      | _ => state.atChild .overwriteNsswitch
  | .overwriteNsswitch => state.atChild .bringupLoopback
  | .bringupLoopback =>
      match answer with
      | .ok _ =>
          { state with child := { state.child with
              position := .bringupTun
              loopback := true } }
      | _ => state.childFails
  | .bringupTun =>
      match answer with
      | .ok tunfd =>
          { state with child := { state.child with
              position := if conf.ipv6 then .setupIpv6 else .sendFd
              tunfd := some tunfd } }
      | _ => state.childFails
  | .setupIpv6 =>
      match answer with
      | .ok _ =>
          { state with child := { state.child with
              position := .sendFd
              ipv6 := true } }
      | _ => state.childFails
  | .sendFd =>
      match state.child.tunfd with
      | some tunfd =>
          if answer = .error then
            state.childFails
          else if state.pair.HungUp .right then
            state.childEnds sigpipe
          else
            { state with
              pair := state.pair.write .right (.descriptor tunfd)
            }.atChild .readReady
      | none => state.childFails
  | .readReady =>
      if answer = .error then
        state.childFails
      else
        match state.pair.read .right with
        | .message _ =>
            { state with pair := state.pair.consume .right }.atChild .closeSk
        | .eof => state.childFails
        | .blocks => state
  | .closeSk =>
      { state with pair := state.pair.close .right .child }.atChild .execvp
  | .execvp =>
      match answer with
      | .ok _ =>
          { state with
            child := { state.child with
              position := .application
              started := true }
            pair := state.pair.exit .child }
      | _ => state.childFails
  | .application => state
  | .ended => state

end State

/-! ## Runs -/

/-- What happens next. -/
inductive Event where
  | parent (answer : Answer)
  | child (answer : Answer)
  /-- The parent reads the signal, or calls `waitpid`, in its loop. -/
  | loop (event : Loop.Children.Event)
  /-- `parent` returns what `loop_run` returned. -/
  | finish
  /-- The application and its descendants fork, die and stop. -/
  | family (event : Loop.Children.Event)
  | childDies (stat : Status)
  | parentDies
deriving DecidableEq, Repr

/-- The parent is in its loop or has not come to it. -/
def ParentAt.isEnded : ParentAt → Bool
  | .ended _ => true
  | _ => false

/-- A call of the loop, not of the children. -/
def ofLoop : Loop.Children.Event → Bool
  | .readSignal => true
  | .waitpid _ => true
  | _ => false

namespace State

/-- The children of the parent among themselves. -/
def relatives (state : State) : Loop.Children.Event → State
  | .die pid stat => { state with run := state.buried pid stat }
  | .stop =>
      { state with
        run :=
          { state.run with
            kernel :=
              { state.run.kernel with
                pending :=
                  state.parent.blocked || state.run.kernel.pending } } }
  | event => { state with run := state.run.step event }

/-- The step which an event takes. -/
def step (conf : Nspconf) (state : State) : Event → State
  | .parent answer => state.parentStep answer
  | .child answer => state.childStep conf answer
  | .loop event => { state with run := state.run.step event }
  | .finish =>
      match state.run.phase with
      | .returned code => state.parentEnds (some code)
      | _ => state
  | .family event => state.relatives event
  | .childDies stat => state.childEnds stat
  | .parentDies => state.parentEnds none

/-- A process waits for the other one. -/
def Blocks (state : State) (party : Party) : Prop :=
  match state.pair.read party.side with
  | .blocks => True
  | _ => False

theorem Blocks.reads {state : State} {party : Party}
    (blocks : state.Blocks party) :
    state.pair.read party.side = .blocks := by
  unfold Blocks at blocks
  split at blocks
  · assumption
  · exact blocks.elim

/-- The next call of the parent returns. -/
def ParentMoves (state : State) : Prop :=
  match state.parent.position with
  | .loopRun => False
  | .ended _ => False
  | .recvFd => ¬ state.Blocks .parent
  | _ => True

/-- The next call of the child returns. -/
def ChildMoves (state : State) : Prop :=
  match state.child.position with
  | .application => False
  | .ended => False
  | .readReady => ¬ state.Blocks .child
  | _ => True

/-- The application or a descendant of it, other than the first child. -/
def mayHappen (state : State) : Loop.Children.Event → Prop
  | .fork pid =>
      state.run.kernel.running ≠ [] ∧ pid ∉ state.run.kernel.running
  | .die pid stat =>
      pid ∈ state.run.kernel.running ∧ stat.exitcode.isSome ∧
        (pid = state.cid → state.child.position = .ended)
  | .stop => state.run.kernel.running ≠ []
  | _ => False

/-- The events which the kernel and the programs permit. -/
def enabled (state : State) : Event → Prop
  | .parent _ => state.ParentMoves
  | .child _ => state.ChildMoves
  | .loop event =>
      state.parent.position = .loopRun ∧ ofLoop event = true ∧
        state.run.enabled event
  | .finish =>
      state.parent.position = .loopRun ∧
        ∃ code, state.run.phase = .returned code
  | .family event => state.child.started = true ∧ state.mayHappen event
  | .childDies stat =>
      state.child.position ≠ .ended ∧ stat.exitcode.isSome
  | .parentDies => state.parent.position.isEnded = false

/-- `main` after `fork`. -/
def forked (cid : Nat) : State where
  pair := .inherited [.parent, .child]
  parent :=
    { position := .closePeer
      tunfd := none
      blocked := false
      loop := false
      core := none }
  child :=
    { position := .closePeer
      netns := false
      resolvConf := false
      loopback := false
      tunfd := none
      ipv6 := false
      started := false }
  cid := cid
  run :=
    { kernel := { running := [cid], zombies := [], pending := false }
      phase := .waiting
      reaped := [] }

end State

/-- The two processes, with everything which may happen to them. -/
def startSystem (conf : Nspconf) : System Empty State Event where
  initial state := ∃ cid, state = State.forked cid
  enabled := State.enabled
  step state event := .ok (state.step conf event)

end Nsproxy.Process.Startup
