import Mathlib.Data.Nat.ModEq
import Mathlib.Tactic.Ring

/-!
# Arithmetic with an end-around carry

Sums are kept between zero and a limit by adding what is carried out of the
top at the bottom again.  The sum which results is the remainder modulo the
limit, except that only zero itself has the sum zero; a positive multiple of
the limit has the limit.

When the limit and one are the square of a unit, words have two halves, and
multiplying by the unit swaps them.  So a sum over the digits of a text in
which every other digit is worth a unit depends on where the text begins by a
swap only.
-/

namespace Nsproxy.Lib.OnesComplement

/-! ## Carried sums -/

section Carried

variable {limit : Nat}

/-- The sum which is left when every carry came back in at the bottom. -/
def carried (limit total : Nat) : Nat :=
  if total = 0 then 0 else (total - 1) % limit + 1

@[simp]
theorem carried_zero : carried limit 0 = 0 := rfl

@[simp]
theorem carried_eq_zero {total : Nat} :
    carried limit total = 0 ↔ total = 0 := by
  unfold carried
  split <;> simp_all

theorem carried_le (positive : 0 < limit) (total : Nat) :
    carried limit total ≤ limit := by
  unfold carried
  split
  · exact Nat.zero_le limit
  · exact Nat.mod_lt _ positive

theorem carried_of_le {total : Nat} (small : total ≤ limit) :
    carried limit total = total := by
  unfold carried
  split
  · next zero => exact zero.symm
  · next positive =>
      rw [Nat.mod_eq_of_lt (by omega)]
      omega

/-- The carried sum is the sum, modulo the limit. -/
theorem carried_modEq (limit total : Nat) :
    carried limit total ≡ total [MOD limit] := by
  unfold carried
  split
  · next zero => rw [zero]
  · next positive =>
      have step := (Nat.mod_modEq (total - 1) limit).add_right 1
      rwa [Nat.sub_add_cancel (Nat.pos_of_ne_zero positive)] at step

/-- Two sums between zero and the limit which agree are equal. -/
theorem eq_of_modEq_of_le
    {first second : Nat} (equal : first ≡ second [MOD limit])
    (zero : first = 0 ↔ second = 0)
    (small : first ≤ limit) (other : second ≤ limit) :
    first = second := by
  by_cases empty : first = 0
  · rw [empty, zero.mp empty]
  · have filled : second ≠ 0 := fun gone => empty (zero.mpr gone)
    have before : first - 1 ≡ second - 1 [MOD limit] := by
      apply Nat.ModEq.add_right_cancel' 1
      rwa [Nat.sub_add_cancel (Nat.pos_of_ne_zero empty),
        Nat.sub_add_cancel (Nat.pos_of_ne_zero filled)]
    have same :=
      before.eq_of_lt_of_lt (by omega) (by omega)
    omega

theorem carried_congr
    (positive : 0 < limit) {first second : Nat}
    (equal : first ≡ second [MOD limit])
    (zero : first = 0 ↔ second = 0) :
    carried limit first = carried limit second := by
  have same : carried limit first ≡ carried limit second [MOD limit] :=
    (carried_modEq limit first).trans
      (equal.trans (carried_modEq limit second).symm)
  apply eq_of_modEq_of_le same
  · simpa using zero
  · exact carried_le positive first
  · exact carried_le positive second

@[simp]
theorem carried_carried_add
    (positive : 0 < limit) (first second : Nat) :
    carried limit (carried limit first + second) =
      carried limit (first + second) := by
  apply carried_congr positive
  · exact (carried_modEq limit first).add_right second
  · simp

theorem carried_add_carried
    (positive : 0 < limit) (first second : Nat) :
    carried limit (first + carried limit second) =
      carried limit (first + second) := by
  rw [Nat.add_comm, carried_carried_add positive, Nat.add_comm]

theorem carried_mul_carried
    (positive : 0 < limit) (factor total : Nat) :
    carried limit (factor * carried limit total) =
      carried limit (factor * total) := by
  apply carried_congr positive
  · exact (carried_modEq limit total).mul_left factor
  · simp

/-! ## Folding -/

/-- What is above the top is added at the bottom. -/
def fold (limit total : Nat) : Nat :=
  total / (limit + 1) + total % (limit + 1)

theorem fold_modEq (limit total : Nat) :
    fold limit total ≡ total [MOD limit] := by
  have whole := Nat.div_add_mod total (limit + 1)
  have parts :
      total =
        limit * (total / (limit + 1)) + fold limit total := by
    unfold fold
    calc
      total =
          (limit + 1) * (total / (limit + 1)) +
            total % (limit + 1) := whole.symm
      _ = limit * (total / (limit + 1)) +
            (total / (limit + 1) + total % (limit + 1)) := by
          ring
  calc
    fold limit total % limit =
        (limit * (total / (limit + 1)) + fold limit total) % limit :=
      (Nat.mul_add_mod _ _ _).symm
    _ = total % limit := by rw [← parts]

@[simp]
theorem fold_eq_zero {total : Nat} : fold limit total = 0 ↔ total = 0 := by
  refine ⟨?_, ?_⟩
  · intro zero
    have whole := Nat.div_add_mod total (limit + 1)
    unfold fold at zero
    rcases Nat.add_eq_zero_iff.mp zero with ⟨high, low⟩
    rw [high, low] at whole
    simpa using whole.symm
  · rintro rfl
    simp [fold]

theorem carried_fold (positive : 0 < limit) (total : Nat) :
    carried limit (fold limit total) = carried limit total :=
  carried_congr positive (fold_modEq limit total) fold_eq_zero

/-- One fold finishes a sum of two. -/
theorem fold_of_le {total : Nat} (small : total ≤ 2 * limit) :
    fold limit total = carried limit total := by
  rcases Nat.eq_zero_or_pos limit with rfl | positive
  · have zero : total = 0 := by omega
    simp [zero, fold]
  · have low : fold limit total ≤ limit := by
      have whole := Nat.div_add_mod total (limit + 1)
      have rest : total % (limit + 1) < limit + 1 :=
        Nat.mod_lt total (Nat.succ_pos limit)
      have high : total / (limit + 1) < 2 := by
        apply Nat.div_lt_of_lt_mul
        omega
      unfold fold
      rcases Nat.lt_or_ge (total / (limit + 1)) 1 with below | one
      · omega
      · have exact_ : total / (limit + 1) = 1 := by omega
        rw [exact_] at whole ⊢
        omega
    rw [← carried_of_le low, carried_fold positive]

/-- Two folds finish any sum which is shorter than two words. -/
theorem fold_fold
    {total : Nat} (small : total < (limit + 1) * (limit + 1)) :
    fold limit (fold limit total) = carried limit total := by
  rcases Nat.eq_zero_or_pos limit with rfl | positive
  · have zero : total = 0 := by omega
    simp [zero, fold]
  · have high : total / (limit + 1) < limit + 1 :=
      Nat.div_lt_of_lt_mul small
    have low : total % (limit + 1) < limit + 1 :=
      Nat.mod_lt total (Nat.succ_pos limit)
    rw [fold_of_le (by unfold fold; omega), carried_fold positive]

/-! ## Complements -/

/-- A sum and the complement of what it is carried to fill the word. -/
theorem carried_add_complement (positive : 0 < limit) (total : Nat) :
    carried limit (total + (limit - carried limit total)) = limit := by
  have small := carried_le positive total
  rw [← carried_carried_add positive, Nat.add_sub_cancel' small]
  exact carried_of_le (Nat.le_refl limit)

end Carried

/-! ## Words of two halves -/

section Halves

variable {unit : Nat}

/-- The largest word of two digits below `unit`. -/
def top (unit : Nat) : Nat := unit * unit - 1

theorem top_pos (two : 2 ≤ unit) : 0 < top unit := by
  have four := Nat.mul_le_mul two two
  unfold top
  omega

theorem top_succ (two : 2 ≤ unit) : top unit + 1 = unit * unit := by
  have four := Nat.mul_le_mul two two
  unfold top
  omega

/-- The two halves of a word change places. -/
def swap (unit word : Nat) : Nat :=
  word % unit * unit + word / unit

theorem mul_unit_unit_modEq (two : 2 ≤ unit) (total : Nat) :
    unit * (unit * total) ≡ total [MOD top unit] := by
  have whole : unit * (unit * total) = top unit * total + total := by
    rw [← Nat.mul_assoc, ← top_succ two]
    ring
  rw [whole]
  exact (Nat.modEq_iff_dvd' (Nat.le_add_left _ _)).mpr
    ⟨total, by omega⟩ |>.symm

theorem carried_unit_unit (two : 2 ≤ unit) (total : Nat) :
    carried (top unit) (unit * (unit * total)) =
      carried (top unit) total := by
  have positive : 0 < unit := Nat.lt_of_lt_of_le Nat.two_pos two
  apply carried_congr (top_pos two) (mul_unit_unit_modEq two total)
  simp [Nat.pos_iff_ne_zero.mp positive]

/-- To swap the halves of a word is to multiply by the unit. -/
theorem swap_eq_carried
    (two : 2 ≤ unit) {word : Nat} (small : word ≤ top unit) :
    swap unit word = carried (top unit) (unit * word) := by
  have positive : 0 < unit := Nat.lt_of_lt_of_le Nat.two_pos two
  have square := top_succ two
  have high : word / unit < unit := by
    apply Nat.div_lt_of_lt_mul
    omega
  have low := Nat.mod_lt word positive
  have whole := Nat.div_add_mod word unit
  have bound : swap unit word ≤ top unit := by
    have most : word % unit * unit + unit ≤ unit * unit := by
      have step := Nat.mul_le_mul_right unit low
      rwa [Nat.succ_mul] at step
    unfold swap
    omega
  rw [← carried_of_le bound]
  apply carried_congr (top_pos two)
  · have parts :
        unit * word =
          unit * (word % unit) + unit * (unit * (word / unit)) := by
      calc
        unit * word = unit * (unit * (word / unit) + word % unit) := by
          rw [whole]
        _ = unit * (word % unit) + unit * (unit * (word / unit)) := by
          ring
    rw [parts, swap, Nat.mul_comm (word % unit)]
    exact (mul_unit_unit_modEq two (word / unit)).symm.add_left _
  · have nonzero := Nat.pos_iff_ne_zero.mp positive
    have split : word = 0 ↔ word / unit = 0 ∧ word % unit = 0 := by
      refine ⟨?_, ?_⟩
      · rintro rfl
        simp
      · rintro ⟨zero, nothing⟩
        rw [zero, nothing] at whole
        simpa using whole.symm
    simp [swap, nonzero, split, and_comm]

/-- The digits of a text, every other one worth a unit. -/
def laneSum (unit : Nat) : Bool → List Nat → Nat
  | _, [] => 0
  | true, digit :: rest => unit * digit + laneSum unit false rest
  | false, digit :: rest => digit + laneSum unit true rest

/-- The words of a text; the last one is filled up with a zero. -/
def wordSum (unit : Nat) : List Nat → Nat
  | [] => 0
  | [digit] => unit * digit
  | high :: low :: rest => unit * high + low + wordSum unit rest

theorem wordSum_eq_laneSum (unit : Nat) (digits : List Nat) :
    wordSum unit digits = laneSum unit true digits := by
  induction digits using wordSum.induct with
  | case1 => rfl
  | case2 digit => rfl
  | case3 high low rest induction =>
      simp only [wordSum, laneSum, induction]
      omega

/-- Where the digits behind an odd number of digits begin. -/
def laneAfter (high : Bool) (digits : List Nat) : Bool :=
  if digits.length % 2 = 0 then high else !high

theorem laneSum_append
    (unit : Nat) (high : Bool) (front back : List Nat) :
    laneSum unit high (front ++ back) =
      laneSum unit high front + laneSum unit (laneAfter high front) back := by
  induction front generalizing high with
  | nil => simp [laneSum, laneAfter]
  | cons digit rest induction =>
      have turn : laneAfter high (digit :: rest) = laneAfter (!high) rest := by
        unfold laneAfter
        rcases Nat.mod_two_eq_zero_or_one rest.length with even | odd
        · simp [even, Nat.add_mod]
        · simp [odd, Nat.add_mod]
      cases high with
      | true =>
          simp only [List.cons_append, laneSum, turn, Bool.not_true,
            induction]
          omega
      | false =>
          simp only [List.cons_append, laneSum, turn, Bool.not_false,
            induction]
          omega

theorem laneSum_eq_zero
    (positive : 0 < unit) (high : Bool) (digits : List Nat) :
    laneSum unit high digits = 0 ↔ ∀ digit ∈ digits, digit = 0 := by
  induction digits generalizing high with
  | nil => simp [laneSum]
  | cons digit rest induction =>
      cases high <;>
        simp [laneSum, induction, Nat.pos_iff_ne_zero.mp positive]

/-- A text which begins at the other half sums to the swapped sum. -/
theorem mul_laneSum_modEq
    (two : 2 ≤ unit) (high : Bool) (digits : List Nat) :
    unit * laneSum unit high digits ≡
      laneSum unit (!high) digits [MOD top unit] := by
  induction digits generalizing high with
  | nil => simp [laneSum, Nat.ModEq.refl]
  | cons digit rest induction =>
      cases high with
      | true =>
          simp only [laneSum, Bool.not_true, Nat.mul_add]
          exact (mul_unit_unit_modEq two digit).add (induction false)
      | false =>
          simp only [laneSum, Bool.not_false, Nat.mul_add]
          exact (induction true).add_left _

theorem carried_mul_laneSum
    (two : 2 ≤ unit) (high : Bool) (digits : List Nat) :
    carried (top unit) (unit * laneSum unit high digits) =
      carried (top unit) (laneSum unit (!high) digits) := by
  have positive : 0 < unit := Nat.lt_of_lt_of_le Nat.two_pos two
  apply carried_congr (top_pos two) (mul_laneSum_modEq two high digits)
  simp [laneSum_eq_zero positive, Nat.pos_iff_ne_zero.mp positive]

end Halves

end Nsproxy.Lib.OnesComplement
