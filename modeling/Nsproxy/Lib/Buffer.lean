import Mathlib.Tactic.Common

/-!
# Arrays with bounded accesses

An array of a fixed size which is read and written in blocks.  A block which
is not inside of the array is a fault.

A block in the middle of an array is read as it is.  `written` is the array
whose first cells were replaced; writing behind them extends them.
-/

namespace Nsproxy.Lib.Buffer

variable {Cell : Type}

/-- An access to cells outside of an array. -/
inductive Outside where
  | load (position count : Nat)
  | store (position count : Nat)
deriving DecidableEq, Repr

/-- The cells from a position on. -/
def load (array : List Cell) (position count : Nat) :
    Except Outside (List Cell) :=
  if position + count ≤ array.length then
    .ok ((array.drop position).take count)
  else
    .error (.load position count)

/-- The array after cells were written from a position on. -/
def store (array : List Cell) (position : Nat) (cells : List Cell) :
    Except Outside (List Cell) :=
  if position + cells.length ≤ array.length then
    .ok
      (array.take position ++
        (cells ++ array.drop (position + cells.length)))
  else
    .error (.store position cells.length)

/-- Write cells at an offset, which then moves behind them. -/
def append (array : List Cell) (offset : Nat) (cells : List Cell) :
    Except Outside (List Cell × Nat) :=
  match store array offset cells with
  | .error fault => .error fault
  | .ok next => .ok (next, offset + cells.length)

theorem load_eq
    {array : List Cell} {position count : Nat}
    (inside : position + count ≤ array.length) :
    load array position count =
      .ok ((array.drop position).take count) :=
  if_pos inside

/-- A block in the middle of an array. -/
theorem load_append
    {front cells rest : List Cell} {position count : Nat}
    (begins : front.length = position) (size : cells.length = count) :
    load (front ++ (cells ++ rest)) position count = .ok cells := by
  subst begins
  subst size
  rw [load_eq]
  · rw [List.drop_left, List.take_left]
  · rw [List.length_append, List.length_append]
    omega

/-- The array after its first cells were written. -/
def written (cells array : List Cell) : List Cell :=
  cells ++ array.drop cells.length

theorem length_written
    {cells array : List Cell} (room : cells.length ≤ array.length) :
    (written cells array).length = array.length := by
  rw [written, List.length_append, List.length_drop]
  omega

/-- What is written extends what was written before. -/
theorem append_written
    {front array cells : List Cell} {offset : Nat}
    (begins : front.length = offset)
    (room : offset + cells.length ≤ array.length) :
    append (written front array) offset cells =
      .ok (written (front ++ cells) array, offset + cells.length) := by
  subst begins
  have inside :
      front.length + cells.length ≤ (written front array).length := by
    rw [length_written (by omega)]
    exact room
  have behind :
      (front ++ array.drop front.length).drop
          (front.length + cells.length) =
        array.drop (front.length + cells.length) := by
    rw [← List.drop_drop, List.drop_left, List.drop_drop]
  rw [append, store, if_pos inside, written, List.take_left, behind,
    written, List.length_append, List.append_assoc]

theorem store_front
    {array cells : List Cell} (room : cells.length ≤ array.length) :
    store array 0 cells = .ok (written cells array) := by
  rw [store, Nat.zero_add, if_pos room, List.take_zero, List.nil_append]
  rfl

/-- Writing begins at the front. -/
theorem append_front
    {array cells : List Cell} (room : cells.length ≤ array.length) :
    append array 0 cells =
      .ok (written cells array, cells.length) := by
  rw [append, store_front room, Nat.zero_add]

end Nsproxy.Lib.Buffer
