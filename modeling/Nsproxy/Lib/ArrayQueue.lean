import Mathlib.Tactic.Common
import Mathlib.Data.List.DropRight

/-!
# Queues at the front of an array

A queue of bounded length which is kept in the first slots of an array.  A new
item goes behind the others; when the array is full, the items move down by
one slot, which drops the oldest.  The slots behind the queue keep whatever
they held.

`Holds` relates the array to the items of the queue.  After any number of
arrivals the items are the last ones, as many as the array has slots.
-/

namespace Nsproxy.Lib.ArrayQueue

variable {Item : Type} {size : Nat}

/-- Assign behind the front of a list. -/
theorem set_behind
    {Cell : Type} {front rest : List Cell} {old new : Cell} {index : Nat}
    (size : front.length = index) :
    (front ++ old :: rest).set index new = front ++ new :: rest := by
  subst size
  rw [List.set_append, if_neg (Nat.lt_irrefl _), Nat.sub_self,
    List.set_cons_zero]

/-- An array of pointers. -/
structure Slots (Item : Type) (size : Nat) where
  entries : List (Option Item)
  length_eq : entries.length = size
deriving DecidableEq

namespace Slots

/-- The array after `calloc`. -/
def clear (Item : Type) (size : Nat) : Slots Item size where
  entries := List.replicate size none
  length_eq := List.length_replicate

/-- Assign to a slot. -/
def assign (slots : Slots Item size) (index : Nat) (item : Item) :
    Slots Item size where
  entries := slots.entries.set index (some item)
  length_eq := by rw [List.length_set, slots.length_eq]

/-- Move every entry but the first down by one slot. -/
def moveDown (slots : Slots Item size) : Slots Item size where
  entries := slots.entries.drop 1 ++ slots.entries.drop (size - 1)
  length_eq := by
    rw [List.length_append, List.length_drop, List.length_drop,
      slots.length_eq]
    omega

/-- The first slots hold these items. -/
def Holds (slots : Slots Item size) (items : List Item) : Prop :=
  ∃ stale, slots.entries = items.map some ++ stale

theorem holds_nil (slots : Slots Item size) : slots.Holds [] :=
  ⟨slots.entries, rfl⟩

theorem Holds.length_le
    {slots : Slots Item size} {items : List Item}
    (holds : slots.Holds items) :
    items.length ≤ size := by
  rcases holds with ⟨stale, equal⟩
  have total := slots.length_eq
  rw [equal, List.length_append, List.length_map] at total
  omega

/-- The slot of an item. -/
theorem Holds.getElem?
    {slots : Slots Item size} {front rest : List Item} {item : Item}
    (holds : slots.Holds (front ++ item :: rest)) :
    slots.entries[front.length]? = some (some item) := by
  rcases holds with ⟨stale, equal⟩
  rw [equal]
  simp

/-- An item is put behind the others. -/
theorem Holds.push
    {slots : Slots Item size} {items : List Item}
    (holds : slots.Holds items) (room : items.length < size)
    (item : Item) :
    (slots.assign items.length item).Holds (items ++ [item]) := by
  rcases holds with ⟨stale, equal⟩
  have total := slots.length_eq
  rw [equal, List.length_append, List.length_map] at total
  cases stale with
  | nil =>
      simp only [List.length_nil] at total
      omega
  | cons old rest =>
      refine ⟨rest, ?_⟩
      simp only [assign, equal]
      rw [set_behind (List.length_map some)]
      simp

/-- In a full array the new item takes the place of the oldest. -/
theorem Holds.slide
    {slots : Slots Item size} {items : List Item}
    (holds : slots.Holds items) (full : items.length = size)
    (positive : 0 < size) (item : Item) :
    (slots.moveDown.assign (size - 1) item).Holds
      (items.tail ++ [item]) := by
  rcases holds with ⟨stale, equal⟩
  have total := slots.length_eq
  rw [equal, List.length_append, List.length_map] at total
  have none_stale : stale = [] :=
    List.length_eq_zero_iff.mp (by omega)
  have front : (slots.entries.drop 1).length = size - 1 := by
    rw [List.length_drop, slots.length_eq]
  have back : (slots.entries.drop (size - 1)).length = 1 := by
    rw [List.length_drop, slots.length_eq]
    omega
  rcases List.length_eq_one_iff.mp back with ⟨last, lastly⟩
  refine ⟨[], ?_⟩
  simp only [assign, moveDown, lastly]
  rw [set_behind front, equal, none_stale]
  simp [List.map_tail]

end Slots

/-! ## The last items -/

/-- With room for one more, the last items are followed by the new one. -/
theorem rtake_concat_of_lt
    {items : List Item} (room : items.length < size) (item : Item) :
    (items ++ [item]).rtake size = items.rtake size ++ [item] := by
  have within : (items ++ [item]).length ≤ size := by
    rw [List.length_append]
    exact room
  rw [List.rtake, List.rtake, Nat.sub_eq_zero_of_le within,
    Nat.sub_eq_zero_of_le (Nat.le_of_lt room), List.drop_zero,
    List.drop_zero]

/-- Without room, the oldest of the last items is gone. -/
theorem rtake_concat_of_le
    {items : List Item} (full : size ≤ items.length)
    (positive : 0 < size) (item : Item) :
    (items ++ [item]).rtake size =
      (items.rtake size).tail ++ [item] := by
  rw [List.rtake, List.rtake, List.tail_drop, List.length_append,
    List.length_singleton, List.drop_append_of_le_length (by omega)]
  congr 2
  omega

theorem length_rtake (items : List Item) :
    (items.rtake size).length = min items.length size := by
  rw [List.rtake, List.length_drop]
  omega

end Nsproxy.Lib.ArrayQueue
