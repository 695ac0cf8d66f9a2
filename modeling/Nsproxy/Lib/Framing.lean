import Mathlib.Tactic.Common

/-!
# Messages at the front of a stream

A finder finds the first message of a stream.  Its verdict depends on the
bytes of the message alone: it is final once it is given, and it is given with
the last byte of the message.

A reader which accumulates bytes in a buffer and looks for the message after
every arrival therefore finds it at the same place, however the stream was cut
into arrivals.  `ends_of_isPrefix` says so for all prefixes at once.
-/

namespace Nsproxy.Lib.Framing

/-- It tells where the first message of a stream ends. -/
structure Finder (Byte : Type) where
  ends : List Byte → Option Nat
  inside :
    ∀ {bytes : List Byte} {size : Nat},
      ends bytes = some size → size ≤ bytes.length
  final :
    ∀ {bytes : List Byte} {size : Nat} (more : List Byte),
      ends bytes = some size → ends (bytes ++ more) = some size
  prompt :
    ∀ {bytes : List Byte} {size : Nat},
      ends bytes = some size → ends (bytes.take size) = some size

namespace Finder

variable {Byte : Type} (finder : Finder Byte)

/-- A prefix shows the message as soon as it contains it. -/
theorem ends_of_isPrefix
    {seen stream : List Byte} {size : Nat}
    (front : seen <+: stream) (found : finder.ends stream = some size) :
    finder.ends seen = if size ≤ seen.length then some size else none := by
  rcases front with ⟨rest, rfl⟩
  split
  · next contained =>
      have own := finder.prompt found
      rw [List.take_append_of_le_length contained] at own
      have whole := finder.final (seen.drop size) own
      rwa [List.take_append_drop] at whole
  · next short =>
      cases early : finder.ends seen with
      | none =>
          rfl
      | some other =>
          have same := finder.final rest early
          rw [found] at same
          cases same
          exact absurd (finder.inside early) short

/-- An incomplete prefix is shorter than the message. -/
theorem length_lt_of_incomplete
    {seen stream : List Byte} {size : Nat}
    (front : seen <+: stream) (found : finder.ends stream = some size)
    (incomplete : finder.ends seen = none) :
    seen.length < size := by
  have verdict := finder.ends_of_isPrefix front found
  rw [incomplete] at verdict
  by_contra long
  rw [if_pos (Nat.le_of_not_lt long)] at verdict
  cases verdict

/-- The bytes to be taken of what was shown behind the buffer. -/
def taken (buffer shown : List Byte) : Nat :=
  match finder.ends (buffer ++ shown) with
  | some size => size - buffer.length
  | none => shown.length

theorem taken_le (buffer shown : List Byte) :
    finder.taken buffer shown ≤ shown.length := by
  unfold taken
  split
  · next size found =>
      have within := finder.inside found
      rw [List.length_append] at within
      exact Nat.sub_le_iff_le_add'.mpr within
  · exact Nat.le_refl _

/-- Something is taken whenever something was shown. -/
theorem taken_pos
    {buffer shown : List Byte}
    (incomplete : finder.ends buffer = none) (some_byte : shown ≠ []) :
    0 < finder.taken buffer shown := by
  unfold taken
  split
  · next size found =>
      exact Nat.sub_pos_of_lt
        (finder.length_lt_of_incomplete (List.prefix_append _ _) found
          incomplete)
  · exact List.length_pos_iff.mpr some_byte

/-- The reader has the message, and it stops behind it. -/
theorem taken_of_found
    {buffer shown : List Byte} {size : Nat}
    (incomplete : finder.ends buffer = none)
    (found : finder.ends (buffer ++ shown) = some size) :
    buffer.length + finder.taken buffer shown = size := by
  have longer :=
    finder.length_lt_of_incomplete (List.prefix_append _ _) found
      incomplete
  simp only [taken, found]
  exact Nat.add_sub_cancel' (Nat.le_of_lt longer)

end Finder

end Nsproxy.Lib.Framing
