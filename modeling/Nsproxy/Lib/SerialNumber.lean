import Mathlib.Algebra.Group.Nat.Defs
import Mathlib.Tactic.Common

/-!
# Serial numbers

Positions in an unbounded sequence are numbered modulo a power of two.  Two
numbers are compared by the sign of their difference, as a number of that
width; this is the order of the positions wherever these are less than half
the numbers apart.
-/

namespace Nsproxy.Lib.SerialNumber

variable {width : Nat}

/-- The number of a position, where position zero has the number `start`. -/
def serial (start : BitVec width) (position : Int) : BitVec width :=
  start + BitVec.ofInt width position

/-- Positions which are less than half the numbers apart. -/
def Near (width : Nat) (first second : Int) : Prop :=
  -((2 ^ width : Nat) : Int) ≤ (first - second) * 2 ∧
    (first - second) * 2 < ((2 ^ width : Nat) : Int)

/-- The sign of the difference, negative if `first` comes before `second`. -/
def difference (first second : BitVec width) : Int :=
  (first - second).toInt

section Numbers

variable {start : BitVec width} {first second : Int}

@[simp]
theorem serial_add (start : BitVec width) (position : Int) (count : Nat) :
    serial start position + BitVec.ofNat width count =
      serial start (position + count) := by
  rw [serial, serial, BitVec.ofInt_add, BitVec.add_assoc,
    BitVec.ofInt_natCast]

@[simp]
theorem serial_sub (start : BitVec width) (position : Int) (count : Nat) :
    serial start position - BitVec.ofNat width count =
      serial start (position - count) := by
  rw [BitVec.sub_eq_iff_eq_add, serial_add, Int.sub_add_cancel]

theorem serial_sub_serial (start : BitVec width) (first second : Int) :
    serial start first - serial start second =
      BitVec.ofInt width (first - second) := by
  rw [serial, serial, BitVec.sub_eq_iff_eq_add, BitVec.add_comm _ (_ + _),
    BitVec.add_assoc, ← BitVec.ofInt_add]
  congr 2
  omega

/-- Numbers subtract as positions do, while these are near. -/
theorem difference_serial (near : Near width first second) :
    difference (serial start first) (serial start second) =
      first - second := by
  rw [difference, serial_sub_serial, BitVec.toInt_ofInt]
  exact Int.bmod_eq_of_le_mul_two near.1 near.2

/-- How many numbers lie between two positions, up to all of them. -/
theorem toNat_serial_sub
    (start : BitVec width) {low high : Nat} (ordered : low ≤ high)
    (few : high - low < 2 ^ width) :
    (serial start high - serial start low).toNat = high - low := by
  have natural : (high : Int) - (low : Int) = ((high - low : Nat) : Int) := by
    omega
  rw [serial_sub_serial, natural, BitVec.ofInt_natCast, BitVec.toNat_ofNat,
    Nat.mod_eq_of_lt few]

/-- Near positions with one number are one position. -/
theorem serial_inj (near : Near width first second) :
    serial start first = serial start second ↔ first = second := by
  refine ⟨?_, fun same => same ▸ rfl⟩
  intro same
  have apart :
      difference (serial start first) (serial start second) =
        first - second :=
    difference_serial near
  rw [same, difference, BitVec.sub_self, BitVec.toInt_zero] at apart
  omega

end Numbers

end Nsproxy.Lib.SerialNumber
