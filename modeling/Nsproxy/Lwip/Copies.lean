import Mathlib.Tactic.Common
import Nsproxy.Lib.Buffer
import Nsproxy.Lwip.Buffers

/-!
# Copying out of a chain

`pbuf_copy_partial` writes a part of the payload of a chain to a buffer of
the caller, one pbuf after another.  It does not know how long the buffer is;
here, a write behind its end is a fault.

A copy of the whole payload into a buffer with room for it puts the payload
at the front of the buffer and leaves what is behind it.
-/

namespace Nsproxy.Lwip.Copies

open Nsproxy.Lib.Buffer
open Nsproxy.Lwip.Buffers

/--
The loop of `pbuf_copy_partial`; `copied_total` is `left` all along.  The sums
of the source do not overflow, for none exceeds the length asked for.
-/
def copyLoop :
    List Pbuf → List UInt8 → Nat → Nat → Nat →
      Except Outside (List UInt8 × Nat)
  | [], dataptr, _, _, left => .ok (dataptr, left)
  | p :: rest, dataptr, len, offset, left =>
      if len = 0 then
        .ok (dataptr, left)
      else if offset ≠ 0 ∧ p.len ≤ offset then
        copyLoop rest dataptr len (offset - p.len) left
      else
        let bufCopyLen := min (p.len - offset) len
        let piece := (p.payload.drop offset).take bufCopyLen
        match append dataptr left piece with
        | .error fault => .error fault
        | .ok (next, right) =>
            copyLoop rest next (len - bufCopyLen) 0 right

/-- `pbuf_copy_partial`: the buffer and the number of bytes copied. -/
def pbufCopyPartial
    (buf : List Pbuf) (dataptr : List UInt8) (len offset : Nat) :
    Except Outside (List UInt8 × Nat) :=
  copyLoop buf dataptr len offset 0

theorem copyLoop_zero
    (pbufs : List Pbuf) (dataptr : List UInt8) (offset left : Nat) :
    copyLoop pbufs dataptr 0 offset left = .ok (dataptr, left) := by
  cases pbufs with
  | nil => rfl
  | cons p rest => rfl

/-- The bytes of the first pbuf are copied, then those of the others. -/
theorem copyLoop_payloads
    (pbufs : List Pbuf) {front dataptr : List UInt8} {left : Nat}
    (begins : front.length = left)
    (room : left + (payloads pbufs).length ≤ dataptr.length) :
    copyLoop pbufs (written front dataptr) (payloads pbufs).length 0
        left =
      .ok
        (written (front ++ payloads pbufs) dataptr,
          left + (payloads pbufs).length) := by
  induction pbufs generalizing front left with
  | nil =>
      simp [copyLoop]
  | cons p rest induction =>
      have total :
          (payloads (p :: rest)).length =
            p.len + (payloads rest).length := by
        rw [payloads_cons, List.length_append]
        rfl
      by_cases none_left : (payloads (p :: rest)).length = 0
      · have empty : payloads (p :: rest) = [] :=
          List.length_eq_zero_iff.mp none_left
        rw [none_left, copyLoop_zero, empty, List.append_nil,
          Nat.add_zero]
      · have whole :
            min (p.len - 0) (payloads (p :: rest)).length =
              p.payload.length := by
          rw [total]
          exact Nat.min_eq_left (Nat.le_add_right _ _)
        have inside : left + p.payload.length ≤ dataptr.length := by
          have within : p.payload.length = p.len := rfl
          omega
        have behind :
            (payloads (p :: rest)).length - p.payload.length =
              (payloads rest).length := by
          rw [total]
          exact Nat.add_sub_cancel_left _ _
        have extended :
            (front ++ p.payload).length = left + p.payload.length := by
          rw [List.length_append, begins]
        simp only [copyLoop, if_neg none_left, ne_eq, not_true_eq_false,
          false_and, if_false, whole, List.drop_zero, List.take_length,
          append_written begins inside, behind]
        have remaining :
            left + p.payload.length + (payloads rest).length ≤
              dataptr.length := by
          rw [payloads_cons, List.length_append] at room
          omega
        rw [induction extended remaining]
        simp [Nat.add_assoc]

/-- A copy of the whole payload. -/
theorem pbufCopyPartial_whole
    {pbufs : List Pbuf} {dataptr : List UInt8}
    (room : (payloads pbufs).length ≤ dataptr.length) :
    pbufCopyPartial pbufs dataptr (payloads pbufs).length 0 =
      .ok (written (payloads pbufs) dataptr, (payloads pbufs).length) := by
  have begins : written ([] : List UInt8) dataptr = dataptr := rfl
  have within : 0 + (payloads pbufs).length ≤ dataptr.length := by
    rw [Nat.zero_add]
    exact room
  have copied := copyLoop_payloads pbufs List.length_nil within
  rw [begins, List.nil_append, Nat.zero_add] at copied
  exact copied

end Nsproxy.Lwip.Copies
