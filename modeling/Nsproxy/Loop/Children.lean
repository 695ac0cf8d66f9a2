import Nsproxy.Lib.Transition

/-!
# Waiting for the children

`loop_run` ends when the last child has ended.  The kernel keeps the children
which run, the dead ones which nobody has waited for, and one bit which says
that `SIGCHLD` is pending; deaths which follow each other before the bit is
read leave one bit.  A dead child is found by `waitpid` in no particular
order.

Handling the signal is not one step.  The descriptor of the signal is read,
which clears the bit, and then one `waitpid` follows another; children may be
forked and may die in between.  A child which forks leaves grandchildren, and
these become children when it dies, so new children appear while any child is
running.  A child which stops also raises the signal.

The exit code is a local variable of the handler and starts at zero in each
of its runs.
-/

namespace Nsproxy.Loop.Children

open Nsproxy.Lib.Transition

/-! ## The kernel -/

/-- A status as `waitpid` reports it. -/
inductive Status where
  | exited (code : BitVec 8)
  | signaled (signal : Fin 127)
  | stopped (signal : Fin 127)
deriving DecidableEq, Repr

/--
The exit code which the handler makes of a status: `WEXITSTATUS`, or
`128 + WTERMSIG`; none for a child which is not dead.
-/
def Status.exitcode : Status → Option Nat
  | .exited code => some code.toNat
  | .signaled signal => some (128 + signal.val)
  | .stopped _ => none

/-- The children of the process, by their number, and its pending signal. -/
structure Kernel where
  running : List Nat
  zombies : List (Nat × Status)
  pending : Bool
deriving DecidableEq, Repr

/-- The answers of `waitpid(-1, &stat, WNOHANG)`. -/
inductive Waited where
  | child (pid : Nat) (stat : Status)
  | nobody
  | echild
deriving DecidableEq, Repr

/-- `waitpid`, where `pick` is the kernel's choice among the dead. -/
def Kernel.waitpid (kernel : Kernel) (pick : Nat) : Waited × Kernel :=
  match kernel.zombies[pick % kernel.zombies.length]? with
  | some (pid, stat) =>
      (.child pid stat,
        { kernel with
          zombies :=
            kernel.zombies.eraseIdx (pick % kernel.zombies.length) })
  | none =>
      if kernel.running = [] then
        (.echild, kernel)
      else
        (.nobody, kernel)

theorem Kernel.waitpid_zombies
    {kernel : Kernel} (dead : kernel.zombies ≠ []) (pick : Nat) :
    ∃ pid stat left,
      kernel.waitpid pick =
        (.child pid stat, { kernel with zombies := left }) ∧
      (pid, stat) ∈ kernel.zombies ∧
      left.length + 1 = kernel.zombies.length ∧
      ∀ child ∈ left, child ∈ kernel.zombies := by
  have positive : 0 < kernel.zombies.length :=
    List.length_pos_iff.mpr dead
  have bound := Nat.mod_lt pick positive
  refine ⟨(kernel.zombies[pick % kernel.zombies.length]).1,
    (kernel.zombies[pick % kernel.zombies.length]).2,
    kernel.zombies.eraseIdx (pick % kernel.zombies.length), ?_, ?_, ?_, ?_⟩
  · simp only [Kernel.waitpid, List.getElem?_eq_getElem bound]
  · exact List.getElem_mem bound
  · rw [List.length_eraseIdx_of_lt bound]
    exact Nat.sub_add_cancel positive
  · intro child member
    exact List.mem_of_mem_eraseIdx member

theorem Kernel.waitpid_none
    {kernel : Kernel} (none_dead : kernel.zombies = []) (pick : Nat) :
    kernel.waitpid pick =
      (if kernel.running = [] then .echild else .nobody, kernel) := by
  by_cases alone : kernel.running = []
  · simp [Kernel.waitpid, none_dead, alone]
  · simp [Kernel.waitpid, none_dead, alone]

/-! ## The loop -/

/--
Where the loop is: in `epoll_wait` or another handler, within
`sigfd_handler` with the current exit code, or returned.
-/
inductive Phase where
  | waiting
  | reaping (exitcode : Nat)
  | returned (exitcode : Nat)
deriving DecidableEq, Repr

/-- The exit code of the signal's handler, while it runs. -/
def Phase.current : Phase → Option Nat
  | .reaping exitcode => some exitcode
  | _ => none

/--
The state of a run.  `reaped` lists what `waitpid` has returned so far; it
only records and nothing reads it.
-/
structure Run where
  kernel : Kernel
  phase : Phase
  reaped : List (Nat × Status)
deriving DecidableEq, Repr

/-- What may happen next. -/
inductive Event where
  | fork (pid : Nat)
  | die (pid : Nat) (stat : Status)
  | stop
  | readSignal
  | waitpid (pick : Nat)
deriving DecidableEq, Repr

/-- One turn of the loop of `waitpid` in `sigfd_handler`. -/
def Run.reap (run : Run) (exitcode pick : Nat) : Run :=
  match run.kernel.waitpid pick with
  | (.child pid stat, kernel) =>
      { kernel := kernel
        phase := .reaping (stat.exitcode.getD exitcode)
        reaped := run.reaped ++ [(pid, stat)] }
  | (.echild, kernel) =>
      { run with kernel := kernel, phase := .returned exitcode }
  | (.nobody, kernel) =>
      { run with kernel := kernel, phase := .waiting }

/-- The step which an event takes. -/
def Run.step (run : Run) : Event → Run
  | .fork pid =>
      { run with
        kernel :=
          { run.kernel with running := pid :: run.kernel.running } }
  | .die pid stat =>
      { run with
        kernel :=
          { running := run.kernel.running.erase pid
            zombies := run.kernel.zombies ++ [(pid, stat)]
            pending := true } }
  | .stop =>
      { run with kernel := { run.kernel with pending := true } }
  | .readSignal =>
      { run with
        kernel := { run.kernel with pending := false }
        phase := .reaping 0 }
  | .waitpid pick =>
      match run.phase.current with
      | some exitcode => run.reap exitcode pick
      | none => run

/-- The events which the kernel and the loop permit. -/
def Run.enabled (run : Run) : Event → Prop
  | .fork _ => run.kernel.running ≠ []
  | .die pid stat => pid ∈ run.kernel.running ∧ stat.exitcode.isSome
  | .stop => run.kernel.running ≠ []
  | .readSignal => run.phase = .waiting ∧ run.kernel.pending = true
  | .waitpid _ => run.phase.current.isSome

instance (run : Run) (event : Event) :
    Decidable (run.enabled event) := by
  cases event <;> unfold Run.enabled <;> infer_instance

/-- `loop_run` begins with a child, and the signal is blocked before. -/
structure Run.Begins (run : Run) : Prop where
  phase : run.phase = .waiting
  child : run.kernel.running ≠ [] ∨ run.kernel.zombies ≠ []
  pending : run.kernel.zombies ≠ [] → run.kernel.pending = true
  dead : ∀ child ∈ run.kernel.zombies, child.2.exitcode.isSome
  reaped : run.reaped = []

/-- `loop_run` among its children. -/
def loopSystem : System Empty Run Event where
  initial := Run.Begins
  enabled := Run.enabled
  step run event := .ok (run.step event)

instance (run : Run) (event : Event) :
    Decidable (loopSystem.enabled run event) :=
  inferInstanceAs (Decidable (run.enabled event))

/-! ## What holds between the steps -/

/-- The exit code is the one of the child which was reaped last. -/
def LastReaped (reaped : List (Nat × Status)) (exitcode : Nat) : Prop :=
  ∃ before pid stat,
    reaped = before ++ [(pid, stat)] ∧ stat.exitcode = some exitcode

/-- What each phase knows of the children. -/
def Phase.Knows (phase : Phase) (run : Run) : Prop :=
  match phase with
  | .waiting =>
      (run.kernel.running ≠ [] ∨ run.kernel.zombies ≠ []) ∧
        (run.kernel.zombies ≠ [] → run.kernel.pending = true)
  | .reaping exitcode =>
      (run.kernel.running ≠ [] ∨ run.kernel.zombies ≠ []) ∨
        LastReaped run.reaped exitcode
  | .returned exitcode =>
      run.kernel.running = [] ∧ run.kernel.zombies = [] ∧
        LastReaped run.reaped exitcode

/-- The invariant of the runs. -/
structure Run.Sound (run : Run) : Prop where
  dead : ∀ child ∈ run.kernel.zombies, child.2.exitcode.isSome
  knows : run.phase.Knows run

theorem Run.Begins.sound {run : Run} (begins : run.Begins) :
    run.Sound where
  dead := begins.dead
  knows := by
    rw [begins.phase]
    exact ⟨begins.child, begins.pending⟩

/-! ## One step -/

/-- A `waitpid` with a dead child to find. -/
theorem Run.Sound.reap_child
    {run : Run} (sound : run.Sound)
    (exitcode : Nat) (dead : run.kernel.zombies ≠ []) (pick : Nat) :
    (run.reap exitcode pick).Sound ∧
      (run.reap exitcode pick).kernel.zombies.length + 1 =
        run.kernel.zombies.length ∧
      (run.reap exitcode pick).kernel.running = run.kernel.running ∧
      ∃ code, (run.reap exitcode pick).phase = .reaping code := by
  rcases Kernel.waitpid_zombies dead pick with
    ⟨pid, stat, left, waited, member, length, rest⟩
  rcases Option.isSome_iff_exists.mp (sound.dead (pid, stat) member) with
    ⟨code, exited⟩
  simp only [Run.reap, waited]
  refine ⟨⟨?_, ?_⟩, length, trivial, _, rfl⟩
  · intro child inside
    exact sound.dead child (rest child inside)
  · apply Or.inr
    refine ⟨run.reaped, pid, stat, rfl, ?_⟩
    rw [exited]
    rfl

/-- The last `waitpid` of a handler, which finds no dead child. -/
theorem Run.Sound.reap_none
    {run : Run} (sound : run.Sound)
    {exitcode : Nat} (reaping : run.phase = .reaping exitcode)
    (none_dead : run.kernel.zombies = []) (pick : Nat) :
    (run.reap exitcode pick).Sound ∧
      (run.reap exitcode pick).kernel = run.kernel ∧
      (run.reap exitcode pick).phase =
        if run.kernel.running = [] then .returned exitcode
        else .waiting := by
  have knows := sound.knows
  rw [reaping] at knows
  by_cases alone : run.kernel.running = []
  · have waited := Kernel.waitpid_none none_dead pick
    rw [if_pos alone] at waited
    simp only [Run.reap, waited, if_pos alone, and_true]
    refine ⟨sound.dead, alone, none_dead, ?_⟩
    rcases knows with present | last
    · rcases present with running | zombie
      · exact absurd alone running
      · exact absurd none_dead zombie
    · exact last
  · have waited := Kernel.waitpid_none none_dead pick
    rw [if_neg alone] at waited
    simp only [Run.reap, waited, if_neg alone, and_true]
    refine ⟨sound.dead, Or.inl alone, ?_⟩
    intro zombie
    exact absurd none_dead zombie

/-- New running children and new signals change nothing that is known. -/
theorem Phase.Knows.grow
    {phase : Phase} {run : Run} (knows : phase.Knows run)
    (running : run.kernel.running ≠ [])
    {kernel : Kernel}
    (present : kernel.running ≠ [] ∨ kernel.zombies ≠ [])
    (pending :
      kernel.pending = true ∨
        kernel.zombies = run.kernel.zombies ∧
          kernel.pending = run.kernel.pending) :
    phase.Knows { run with kernel := kernel } := by
  cases phase with
  | waiting =>
      refine ⟨present, ?_⟩
      intro zombie
      rcases pending with raised | ⟨same, kept⟩
      · exact raised
      · have before : run.kernel.zombies ≠ [] := same ▸ zombie
        exact kept.trans (knows.2 before)
  | reaping exitcode => exact Or.inl present
  | returned exitcode => exact absurd knows.1 running

/-- Every event keeps the invariant. -/
theorem Run.Sound.step
    {run : Run} (sound : run.Sound)
    {event : Event} (permitted : run.enabled event) :
    (run.step event).Sound := by
  cases event with
  | fork pid =>
      refine ⟨sound.dead, ?_⟩
      apply sound.knows.grow permitted
      · exact Or.inl (List.cons_ne_nil pid _)
      · exact Or.inr ⟨rfl, rfl⟩
  | die pid stat =>
      refine ⟨?_, ?_⟩
      · intro child member
        rcases List.mem_append.mp member with old | new
        · exact sound.dead child old
        · rw [List.mem_singleton.mp new]
          exact permitted.2
      · apply sound.knows.grow (List.ne_nil_of_mem permitted.1)
        · exact Or.inr (by simp)
        · exact Or.inl rfl
  | stop =>
      refine ⟨sound.dead, ?_⟩
      apply sound.knows.grow permitted
      · exact Or.inl permitted
      · exact Or.inl rfl
  | readSignal =>
      have knows := sound.knows
      rw [permitted.1] at knows
      exact ⟨sound.dead, Or.inl knows.1⟩
  | waitpid pick =>
      cases phase : run.phase with
      | waiting => simp [Run.enabled, phase, Phase.current] at permitted
      | returned code =>
          simp [Run.enabled, phase, Phase.current] at permitted
      | reaping exitcode =>
          simp only [Run.step, phase, Phase.current]
          by_cases dead : run.kernel.zombies = []
          · exact (sound.reap_none phase dead pick).1
          · exact (sound.reap_child exitcode dead pick).1

theorem sound_of_reachable
    {run : Run} (reachable : loopSystem.Reachable run) :
    run.Sound := by
  apply reachable.invariant
  · intro first begins
    exact begins.sound
  · intro source event target sound permitted handled
    cases handled
    exact sound.step permitted

/-! ## After the last child died -/

/-- How many steps of the loop are left when no child is running. -/
def Run.remaining (run : Run) : Nat :=
  match run.phase with
  | .waiting => run.kernel.zombies.length + 2
  | .reaping _ => run.kernel.zombies.length + 1
  | .returned _ => 0

/-- `loop_run` has returned. -/
def Run.Returned (run : Run) : Prop :=
  ∃ exitcode, run.phase = .returned exitcode

/-- A run in which no child is running any more. -/
structure Run.Ending (run : Run) : Prop where
  sound : run.Sound
  alone : run.kernel.running = []

/-- The loop is not stuck: the signal is pending, or the handler runs. -/
theorem Run.Ending.progress
    {run : Run} (ending : run.Ending) (short : ¬ run.Returned) :
    ∃ event, run.enabled event := by
  have knows := ending.sound.knows
  cases phase : run.phase with
  | waiting =>
      rw [phase] at knows
      have zombie : run.kernel.zombies ≠ [] := by
        rcases knows.1 with running | zombie
        · exact absurd ending.alone running
        · exact zombie
      exact ⟨.readSignal, phase, knows.2 zombie⟩
  | reaping exitcode =>
      refine ⟨.waitpid 0, ?_⟩
      simp [Run.enabled, phase, Phase.current]
  | returned exitcode => exact absurd ⟨exitcode, phase⟩ short

/-- Only the loop can take a step, and it comes closer to its end. -/
theorem Run.Ending.falls
    {run : Run} (ending : run.Ending)
    {event : Event} (permitted : run.enabled event) :
    (run.step event).Ending ∧
      (run.step event).remaining < run.remaining := by
  have sound := ending.sound.step permitted
  cases event with
  | fork pid => exact absurd ending.alone permitted
  | die pid stat =>
      exact absurd ending.alone (List.ne_nil_of_mem permitted.1)
  | stop => exact absurd ending.alone permitted
  | readSignal =>
      refine ⟨⟨sound, ending.alone⟩, ?_⟩
      simp [Run.remaining, Run.step, permitted.1]
  | waitpid pick =>
      cases phase : run.phase with
      | waiting => simp [Run.enabled, phase, Phase.current] at permitted
      | returned code =>
          simp [Run.enabled, phase, Phase.current] at permitted
      | reaping exitcode =>
          simp only [Run.step, phase, Phase.current] at sound ⊢
          by_cases dead : run.kernel.zombies = []
          · rcases ending.sound.reap_none phase dead pick with
              ⟨_, kernel, returned⟩
            rw [if_pos ending.alone] at returned
            refine ⟨⟨sound, ?_⟩, ?_⟩
            · rw [kernel]
              exact ending.alone
            · simp [Run.remaining, returned, phase]
          · rcases ending.sound.reap_child exitcode dead pick with
              ⟨_, length, running, code, after⟩
            refine ⟨⟨sound, running.trans ending.alone⟩, ?_⟩
            simp only [Run.remaining, after, phase]
            omega

theorem Run.Ending.returns
    {run : Run} (ending : run.Ending) :
    loopSystem.Inevitable Run.Returned run := by
  apply System.Inevitable.of_measure Run.Ending Run.remaining
  · intro source ending short
    rcases ending.progress short with ⟨event, permitted⟩
    exact ⟨event, source.step event, permitted, rfl⟩
  · intro source event target ending short permitted handled
    cases handled
    exact ending.falls permitted
  · exact ending

/-! ## The exit of the loop -/

/--
In every interleaving of forks, deaths and the steps of the handler: the loop
returns when no child is left, running or dead, and what it returns is the
status of the child which was reaped last; between two handlers a dead child,
or having none, is announced by the pending signal; once no child is running
the loop cannot but return.
-/
theorem loop_run_returns_last_status
    {run : Run} (reachable : loopSystem.Reachable run) :
    (∀ exitcode, run.phase = .returned exitcode →
      run.kernel.running = [] ∧ run.kernel.zombies = [] ∧
        LastReaped run.reaped exitcode) ∧
    (run.phase = .waiting →
      run.kernel.zombies ≠ [] ∨ run.kernel.running = [] →
      run.kernel.pending = true) ∧
    (run.kernel.running = [] →
      loopSystem.Inevitable Run.Returned run) := by
  have sound := sound_of_reachable reachable
  have knows := sound.knows
  refine ⟨?_, ?_, ?_⟩
  · intro exitcode returned
    rw [returned] at knows
    exact knows
  · intro waiting ended
    rw [waiting] at knows
    apply knows.2
    rcases ended with zombie | alone
    · exact zombie
    · rcases knows.1 with running | zombie
      · exact absurd alone running
      · exact zombie
  · intro alone
    exact Run.Ending.returns ⟨sound, alone⟩

/-- The loop begins with the child which the program forked. -/
def sampleStart : Run :=
  { kernel := { running := [7], zombies := [], pending := false }
    phase := .waiting
    reaped := [] }

theorem sampleStart_begins : sampleStart.Begins where
  phase := rfl
  child := Or.inl (List.cons_ne_nil 7 [])
  pending := by
    intro zombie
    exact absurd rfl zombie
  dead := by
    intro child member
    cases member
  reaped := rfl

/-- The second child dies in the handler which was called for the first. -/
def sampleEvents : List Event :=
  [.fork 8, .die 7 (.signaled 9), .readSignal, .waitpid 0,
    .die 8 (.exited 3#8), .waitpid 0, .waitpid 0]

theorem loop_run_returns_last_status_sample :
    ∃ run : Run,
      run.phase = .returned 3 ∧
      run.kernel.running = [] ∧ run.kernel.zombies = [] ∧
        LastReaped run.reaped 3 := by
  have passes :
      (loopSystem.replay sampleStart sampleEvents).map
        (fun run => decide (run.phase = .returned 3)) = some true := by
    decide +kernel
  have start : loopSystem.Reachable sampleStart :=
    .start sampleStart_begins
  rcases start.exists_replay passes with ⟨run, reachable, test⟩
  have returned := of_decide_eq_true test
  exact ⟨run, returned,
    (loop_run_returns_last_status reachable).1 3 returned⟩

end Nsproxy.Loop.Children
