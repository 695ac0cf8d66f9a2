import Mathlib.Tactic.Common
import Nsproxy.Lib.Transition
import Nsproxy.Lwip.Upkeep
import Nsproxy.Core.TcpStack

/-!
# The control block of a living forward

lwIP frees a control block which a forward refers to only after the error
callback, which destroys the forward.  There is one exception: the TIME-WAIT
of a connection expires silently.  A forward can be alive then, because the
proxy did not take everything yet which the application sent.
-/

namespace Nsproxy.Core.PcbLiveness

open Nsproxy.Lib.Transition
open Nsproxy.Lwip.Opts
open Nsproxy.Lwip.Buffers
open Nsproxy.Lwip.TcpOut
open Nsproxy.Lwip.Tcp
open Nsproxy.Lwip.TcpIn
open Nsproxy.Lwip.TcpTimers
open Nsproxy.Lwip.Upkeep
open Nsproxy.Skutils
open Nsproxy.Core.Memory
open Nsproxy.Core.TcpHandlers
open Nsproxy.Core.TcpOutcomes
open Nsproxy.Core.TcpPaths
open Nsproxy.Core.TcpEvents
open Nsproxy.Core.TcpStack

/-! ## The receiving side stays open -/

/-- Only the destruction of the forward closes the receiving side. -/
def Unclosed (live : Live) : Prop := live.pcb.rxClosed = false

theorem rxClosed_tcpWrite
    {pcb next : TcpPcb} {data : List UInt8} {err : ErrT}
    (written : tcpWrite pcb data = .ok (err, next)) :
    next.rxClosed = pcb.rxClosed := by
  rcases tcpWrite_cases written with ⟨_, _, _, rfl⟩ | ⟨_, rfl⟩
  · rfl
  · rfl

theorem Unclosed.micro
    (live next : Live) (step : Micro live next)
    (holds : Unclosed live) :
    Unclosed next := by
  have kept {pcb : TcpPcb} (keeps : Keeps live.pcb pcb) :
      pcb.rxClosed = false :=
    keeps.rxClosed.trans holds
  cases step with
  | feed room filled short written =>
      refine (keeps_tcpOutput _ _ _).rxClosed.trans ?_
      exact (rxClosed_tcpWrite written).trans holds
  | shutdown finished => exact kept (keeps_tcpShutdown _ _ _)
  | drain queued bounded => exact kept (keeps_tcpRecved _ _ _ _)
  | ack => exact kept (keeps_tcpAck _)
  | output => exact kept (keeps_tcpOutput _ _ _)
  | establish => exact holds
  | refresh => exact holds
  | evctl mask mode => exact holds
  | recvFailed errno => exact holds
  | proxyEnded room => exact holds
  | sendFailed errno => exact holds
  | shutFailed setting errno => exact holds
  | eofShut setting empty due => exact holds
  | eofDisabled setting empty due => exact holds

/-- The event does not stand for unspecified work of lwIP. -/
def isSpecific : Event → Bool
  | .lwip _ => false
  | _ => true

theorem Unclosed.begun
    {live : Live} (holds : Unclosed live) {turn : Turn}
    (specific : isSpecific turn.event = true) :
    Unclosed (begun live turn) := by
  rcases turn with ⟨event, answers⟩
  cases event with
  | lwip next => cases specific
  | gcTick =>
      simp only [TcpEvents.begun]
      split
      · exact holds
      · exact holds
  | sent len => exact holds
  | received chain => exact holds
  | err => exact holds
  | handshakeDone interest => exact holds
  | handshakeFailed => exact holds
  | proxyEvent events => exact holds

/-! ## What lwIP does to a living connection -/

/-- The connection lives, and its receiving side is open. -/
def Lives (world : World) : Prop :=
  ∃ live, world = live.world ∧ Linked live ∧ Unclosed live

theorem Lives.step
    {world next : World} (lives : Lives world) {turn : Turn}
    (specific : isSpecific turn.event = true)
    (handled : step world turn = .ok next) :
    LiveOrDead Unclosed next := by
  rcases lives with ⟨live, rfl, linked, holds⟩
  rcases step_ok handled with ⟨err, ran⟩
  rcases handle_cases linked turn with
    ⟨err, world, run, outcome⟩ | failed
  · rw [ran] at run
    cases run
    exact outcome.handled.liveOrDead Unclosed.micro linked
      (holds.begun specific)
  · rw [ran] at failed
    cases failed

/-- The chore does not free a control block without a call. -/
def Mild : Chore → Prop
  | .work change =>
      ∀ pcb, pcb.rxClosed = false → (change pcb).rxClosed = false
  | .call turn => isSpecific turn.event = true
  | .remove => False

theorem Lives.perform
    {world next : World} (lives : Lives world) {chore : Chore}
    (mild : Mild chore) (done_ : perform world chore = .ok next) :
    LiveOrDead Unclosed next := by
  cases chore with
  | work change =>
      rcases lives with ⟨live, rfl, linked, holds⟩
      cases done_
      exact .inl
        ⟨live.modifyPcb change, rfl, linked, mild live.pcb holds⟩
  | call turn => exact lives.step mild done_
  | remove => cases mild

/-- Mild chores leave the connection alive or destroy the forward. -/
theorem Lives.performAll
    {world last : World} {chores : List Chore} (lives : Lives world)
    (mild : ∀ chore ∈ chores, Mild chore)
    (done_ : performAll chores world = .ok last) :
    LiveOrDead Unclosed last := by
  induction chores generalizing world with
  | nil =>
      cases done_
      exact .inl lives
  | cons chore rest induction =>
      simp only [TcpStack.performAll] at done_
      split at done_
      · cases done_
      · next next performed =>
          have after := lives.perform (mild chore List.mem_cons_self)
            performed
          split at done_
          · next alive =>
              rcases after with still | dead
              · apply induction still
                · intro other member
                  exact mild other (List.mem_cons_of_mem chore member)
                · exact done_
              · rw [dead.fwd] at alive
                cases alive
          · cases done_
            exact after

theorem mild_sentChores (chunks : List UInt16) (answers : List Answers) :
    ∀ chore ∈ sentChores chunks answers, Mild chore := by
  induction chunks generalizing answers with
  | nil =>
      intro chore member
      cases member
  | cons len rest induction =>
      intro chore member
      rcases List.mem_cons.mp member with rfl | later
      · rfl
      · exact induction _ chore later

theorem mild_receivedChores
    (chains : List PbufChain) (answers : List Answers) :
    ∀ chore ∈ receivedChores chains answers, Mild chore := by
  induction chains generalizing answers with
  | nil =>
      intro chore member
      cases member
  | cons chain rest induction =>
      intro chore member
      rcases List.mem_cons.mp member with rfl | later
      · rfl
      · exact induction _ chore later

theorem mild_keeps
    {change : TcpPcb → TcpPcb} (keeps : ∀ pcb, Keeps pcb (change pcb)) :
    Mild (.work change) := by
  intro pcb holds
  exact (keeps pcb).rxClosed.trans holds

theorem mild_callErr : ∀ chore ∈ [callErr], Mild chore := by
  intro chore member
  rw [List.mem_singleton.mp member]
  rfl

theorem mild_deliver (processed : Processed) (replies : Replies) :
    ∀ chore ∈ deliver processed replies, Mild chore := by
  intro chore member
  simp only [deliver] at member
  split at member
  · exact mild_callErr chore member
  · rcases List.mem_append.mp member with payload | last
    · exact mild_receivedChores _ _ chore payload
    · rcases List.mem_append.mp last with ends | output
      · split at ends
        · rcases List.mem_cons.mp ends with rfl | call
          · exact mild_keeps keeps_creditFin
          · rw [List.mem_singleton.mp call]
            rfl
        · cases ends
      · rw [List.mem_singleton.mp output]
        exact mild_keeps fun pcb => keeps_tcpOutput _ _ pcb

theorem mild_afterProcess
    {processed : Processed} (unclosed : processed.pcb.rxClosed = false)
    (replies : Replies) :
    ∀ chore ∈ afterProcess processed replies, Mild chore := by
  intro chore member
  simp only [afterProcess] at member
  split at member
  · exact mild_callErr chore member
  · rcases List.mem_cons.mp member with rfl | later
    · intro pcb _
      exact unclosed
    · rcases List.mem_append.mp later with sent | last
      · exact mild_sentChores _ _ chore sent
      · split at last
        · simp only [delayedClose, unclosed, Bool.false_eq_true,
            if_false] at last
          exact mild_callErr chore last
        · exact mild_deliver processed replies chore last

/-! ## Whole runs -/

theorem lives_of_fwd
    {world : World} (holds : LiveOrDead Unclosed world)
    (present : world.fwd.isSome = true) :
    Lives world := by
  rcases holds with lives | dead
  · exact lives
  · rw [dead.fwd] at present
    cases present

theorem Lives.tcpInput
    {world last : World} (lives : Lives world) {ticks : Nat}
    {seg : Segment} {replies : Replies}
    (done_ : tcpInput ticks seg replies world = .ok last) :
    LiveOrDead Unclosed last := by
  have begins := lives
  rcases lives with ⟨live, rfl, linked, holds⟩
  simp only [TcpStack.tcpInput, Live.world] at done_
  split at done_
  · apply begins.performAll _ done_
    intro chore member
    rw [List.mem_singleton.mp member]
    exact mild_keeps fun pcb => keeps_tcpTimewaitInput _ _ _ pcb
  · next active =>
      have kept := (moved_tcpProcess ticks seg active).keeps.rxClosed
      exact begins.performAll (mild_afterProcess (kept.trans holds) replies)
        done_

/-- A tick which does not end the TIME-WAIT of the connection. -/
theorem Lives.slowtmr
    {world last : World} (lives : Lives world) {ticks : Nat} {due : Bool}
    {writes : List Bool}
    (lingers : ∀ pcb ∈ world.pcb, timeWaitExpires ticks pcb = false)
    (done_ : slowtmr ticks due writes world = .ok last) :
    LiveOrDead Unclosed last := by
  have begins := lives
  rcases lives with ⟨live, rfl, linked, holds⟩
  have stays := lingers live.pcb rfl
  simp only [TcpStack.slowtmr, Live.world, stays, Bool.false_eq_true,
    if_false] at done_
  split at done_
  · cases done_
    exact .inl begins
  · next active =>
      split at done_
      · cases done_
      · split at done_
        · exact begins.performAll mild_callErr done_
        · split at done_
          · cases done_
          · next next ticked =>
              apply begins.performAll _ done_
              intro chore member
              rw [List.mem_singleton.mp member]
              intro pcb _
              exact (keeps_tcpSlowtmr active ticked).rxClosed.trans holds

theorem Lives.fasttmr
    {world last : World} (lives : Lives world) {writes : List Bool}
    (done_ : fasttmr writes world = .ok last) :
    LiveOrDead Unclosed last := by
  have begins := lives
  rcases lives with ⟨live, rfl, linked, holds⟩
  simp only [TcpStack.fasttmr, Live.world] at done_
  split at done_
  · cases done_
    exact .inl begins
  · apply begins.performAll _ done_
    intro chore member
    rw [List.mem_singleton.mp member]
    exact mild_keeps fun pcb => keeps_tcpFasttmr _ pcb

/-- The tick does not end the TIME-WAIT of the connection. -/
def lingers (stack : Stack) : Stimulus → Prop
  | .slowTick _ _ =>
      ∀ pcb ∈ stack.world.pcb,
        timeWaitExpires (stack.ticks + 1) pcb = false
  | _ => True

instance (stack : Stack) :
    (stimulus : Stimulus) → Decidable (lingers stack stimulus)
  | .segment _ _ => inferInstanceAs (Decidable True)
  | .slowTick _ _ =>
      inferInstanceAs
        (Decidable
          (∀ pcb ∈ stack.world.pcb,
            timeWaitExpires (stack.ticks + 1) pcb = false))
  | .fastTick _ => inferInstanceAs (Decidable True)
  | .turn _ => inferInstanceAs (Decidable True)

/-- The runs in which no TIME-WAIT ends while the forward exists. -/
def lingeringSystem : System Fault Stack Stimulus :=
  stackSystem.restrict (fun _ => True) lingers

instance (stack : Stack) (stimulus : Stimulus) :
    Decidable (lingeringSystem.enabled stack stimulus) :=
  inferInstanceAs (Decidable (occurs stack stimulus ∧ _))

theorem map_ok
    {result : Except Fault World} {build : World → Stack} {stack : Stack}
    (mapped : result.map build = .ok stack) :
    ∃ world, result = .ok world ∧ stack = build world := by
  cases result with
  | error fault => cases mapped
  | ok world =>
      cases mapped
      exact ⟨world, rfl, rfl⟩

theorem lives_respond
    {stack last : Stack} {stimulus : Stimulus} (lives : Lives stack.world)
    (permitted : occurs stack stimulus) (stays : lingers stack stimulus)
    (responded : respond stack stimulus = .ok last) :
    LiveOrDead Unclosed last.world := by
  cases stimulus with
  | segment seg replies =>
      rcases map_ok responded with ⟨world, done_, rfl⟩
      exact lives.tcpInput done_
  | slowTick due writes =>
      rcases map_ok responded with ⟨world, done_, rfl⟩
      exact lives.slowtmr stays done_
  | fastTick writes =>
      rcases map_ok responded with ⟨world, done_, rfl⟩
      exact lives.fasttmr done_
  | turn turn =>
      rcases map_ok responded with ⟨world, done_, rfl⟩
      refine lives.step ?_ done_
      have ours := permitted.2.1
      cases event : turn.event with
      | lwip next =>
          rw [event] at ours
          cases ours
      | _ => rfl

theorem reachable_unclosed
    {stack : Stack} (reachable : lingeringSystem.Reachable stack) :
    LiveOrDead Unclosed stack.world := by
  induction reachable with
  | start first =>
      rcases first with ⟨⟨syn, iss, ticks, proxy, env, _, rfl⟩, _⟩
      exact .inl ⟨_, rfl, ⟨rfl, rfl⟩, rfl⟩
  | @next source stimulus target before permitted responded induction =>
      have present : source.world.fwd.isSome = true := by
        have occurring := permitted.1
        cases stimulus with
        | segment seg replies => exact occurring.1
        | slowTick due writes => exact occurring
        | fastTick writes => exact occurring
        | turn turn => exact occurring.1
      exact lives_respond (lives_of_fwd induction present) permitted.1
        permitted.2 responded

/--
In every run in which no TIME-WAIT ends while the forward exists, a living
forward refers to a control block which lwIP has not freed.
-/
theorem pcb_outlives_forward
    {stack : Stack} (reachable : lingeringSystem.Reachable stack)
    {fwd : TcpForward} (alive : stack.world.fwd = some fwd)
    (_refers : fwd.pcb = true) :
    ∃ pcb, stack.world.pcb = some pcb := by
  rcases (reachable_unclosed reachable).of_fwd alive with
    ⟨live, same, _, _, _⟩
  exact ⟨live.pcb, by rw [same]; rfl⟩

/-- The proxy ends first, and does not take the last byte. -/
def sampleLinger : List Stimulus :=
  sampleOpening ++
    [proxyEnds,
      .segment (sampleSegment 6512 [] false) (sampleReplies noAnswers),
      .segment (sampleSegment 6512 [.pbufAlloc [1]] true)
        (sampleReplies notWritable)]

/-- The forward refers to a control block, and it exists or not. -/
def sampleRefers (exists_ : Bool) (stack : Stack) : Bool :=
  decide (stack.world.fwd.map TcpForward.pcb = some true) &&
    decide (stack.world.pcb.isSome = exists_)

theorem refers_of_sample
    {exists_ : Bool} {stack : Stack}
    (tested : sampleRefers exists_ stack = true) :
    (∃ fwd, stack.world.fwd = some fwd ∧ fwd.pcb = true) ∧
      stack.world.pcb.isSome = exists_ := by
  simp only [sampleRefers, Bool.and_eq_true, decide_eq_true_eq,
    Option.map_eq_some_iff] at tested
  exact tested

/-- The control block is there in TIME-WAIT, two minutes long. -/
theorem pcb_outlives_forward_waiting :
    ∃ stack fwd pcb,
      lingeringSystem.Reachable stack ∧ stack.world.fwd = some fwd ∧
        fwd.pcb = true ∧ stack.world.pcb = some pcb := by
  have passes :
      (lingeringSystem.replay sampleStack
          (sampleLinger ++ List.replicate 240 (.slowTick false []))).map
          (sampleRefers true) =
        some true := by
    decide +kernel
  have started : lingeringSystem.Reachable sampleStack :=
    .start ⟨⟨_, _, _, _, _, .inl rfl, rfl⟩, trivial⟩
  rcases started.exists_replay passes with ⟨stack, reachable, tested⟩
  rcases (refers_of_sample tested).1 with ⟨fwd, alive, refers⟩
  rcases pcb_outlives_forward reachable alive refers with ⟨pcb, present⟩
  exact ⟨stack, fwd, pcb, reachable, alive, refers, present⟩

/-- The next tick frees it, and the forward still has the last byte. -/
theorem forward_outlives_pcb :
    ¬ ∀ stack, stackSystem.Reachable stack →
      ∀ fwd, stack.world.fwd = some fwd → fwd.pcb = true →
        ∃ pcb, stack.world.pcb = some pcb := by
  intro outlives
  have passes :
      (stackSystem.replay sampleStack
          (sampleLinger ++ List.replicate 241 (.slowTick false []))).map
          (sampleRefers false) =
        some true := by
    decide +kernel
  have started : stackSystem.Reachable sampleStack :=
    .start ⟨_, _, _, _, _, .inl rfl, rfl⟩
  rcases started.exists_replay passes with ⟨stack, reachable, tested⟩
  rcases refers_of_sample tested with ⟨⟨fwd, alive, refers⟩, freed⟩
  rcases outlives stack reachable fwd alive refers with ⟨pcb, present⟩
  rw [present] at freed
  cases freed

end Nsproxy.Core.PcbLiveness
