import Mathlib.Data.List.Basic

/-!
# Connected pairs of stream ends

Two ends of a stream, each held by any number of processes.  What is written
at one end is read at the other, in order.  An end is hung up when no process
holds the other one: a write there fails, and a read there comes to the end
of the stream once everything was read.  A process which ends lets go of both
ends.
-/

namespace Nsproxy.Lib.SocketPair

/-- The two ends. -/
inductive Side where
  | left
  | right
deriving DecidableEq, Repr

def Side.other : Side → Side
  | .left => .right
  | .right => .left

/-- Who holds the ends, and what can be read at them. -/
structure Pair (Process Message : Type) where
  holders : Side → List Process
  queue : Side → List Message

/-- What a read comes to. -/
inductive ReadAnswer (Message : Type) where
  | message (first : Message)
  | eof
  | blocks

namespace Pair

variable {Process Message : Type}

/-- Every process of the list holds both ends. -/
def inherited (processes : List Process) : Pair Process Message where
  holders _ := processes
  queue _ := []

/-- Nobody is at the other end. -/
def HungUp (pair : Pair Process Message) (side : Side) : Prop :=
  pair.holders side.other = []

instance (pair : Pair Process Message) (side : Side) :
    Decidable (pair.HungUp side) :=
  decidable_of_iff ((pair.holders side.other).isEmpty = true)
    List.isEmpty_iff

theorem hungUp_iff {pair : Pair Process Message} {side : Side} :
    pair.HungUp side ↔ ∀ holder, holder ∉ pair.holders side.other :=
  List.eq_nil_iff_forall_not_mem

/-! ## Messages -/

/-- Write at an end which is not hung up. -/
def write (pair : Pair Process Message) (side : Side) (message : Message) :
    Pair Process Message :=
  { pair with
    queue := fun end_ =>
      if end_ = side.other then pair.queue end_ ++ [message]
      else pair.queue end_ }

/-- What a read at an end comes to. -/
def read (pair : Pair Process Message) (side : Side) :
    ReadAnswer Message :=
  match pair.queue side with
  | message :: _ => .message message
  | [] => if pair.HungUp side then .eof else .blocks

/-- The first message at an end was read. -/
def consume (pair : Pair Process Message) (side : Side) :
    Pair Process Message :=
  { pair with
    queue := fun end_ =>
      if end_ = side then (pair.queue end_).tail else pair.queue end_ }

section Messages

variable {pair : Pair Process Message} {side end_ : Side}
  {message : Message}

@[simp]
theorem holders_write :
    (pair.write side message).holders = pair.holders := rfl

@[simp]
theorem holders_consume :
    (pair.consume side).holders = pair.holders := rfl

/-- A read which finds something takes the first message. -/
theorem read_message (found : pair.read side = .message message) :
    ∃ rest, pair.queue side = message :: rest := by
  unfold read at found
  split at found
  · next first rest waiting =>
      cases found
      exact ⟨rest, waiting⟩
  · split at found <;> cases found

/-- A read blocks only while there is nothing, and somebody to wait for. -/
theorem read_blocks (blocked : pair.read side = .blocks) :
    pair.queue side = [] ∧ ¬ pair.HungUp side := by
  unfold read at blocked
  split at blocked
  · cases blocked
  · next empty =>
      split at blocked
      · cases blocked
      · next held => exact ⟨empty, held⟩

end Messages

/-! ## Holders -/

section Holders

variable [DecidableEq Process]

/-- A process closes an end. -/
def close (pair : Pair Process Message) (side : Side) (process : Process) :
    Pair Process Message :=
  { pair with
    holders := fun end_ =>
      if end_ = side then
        (pair.holders end_).filter (· ≠ process)
      else
        pair.holders end_ }

/-- A process ends. -/
def exit (pair : Pair Process Message) (process : Process) :
    Pair Process Message :=
  { pair with
    holders := fun end_ => (pair.holders end_).filter (· ≠ process) }

variable {pair : Pair Process Message} {side end_ : Side}
  {process holder : Process}

@[simp]
theorem queue_close :
    (pair.close side process).queue = pair.queue := rfl

@[simp]
theorem queue_exit : (pair.exit process).queue = pair.queue := rfl

@[simp]
theorem mem_holders_close :
    holder ∈ (pair.close side process).holders end_ ↔
      holder ∈ pair.holders end_ ∧ (end_ = side → holder ≠ process) := by
  by_cases same : end_ = side
  · simp [close, same]
  · simp [close, same]

@[simp]
theorem mem_holders_exit :
    holder ∈ (pair.exit process).holders end_ ↔
      holder ∈ pair.holders end_ ∧ holder ≠ process := by
  simp [exit]

end Holders

end Pair

end Nsproxy.Lib.SocketPair
