import Mathlib.Tactic.Common

/-!
# Searching C strings

`strchr` and `strrchr` on a string without its NUL: the position of the first
and of the last occurrence of a byte.
-/

namespace Nsproxy.Lib.CString

/-- `strchr`, as the offset of the match. -/
def strchr (text : List UInt8) (byte : UInt8) : Option Nat :=
  text.findIdx? fun other => other == byte

theorem strchr_none {text : List UInt8} {byte : UInt8} :
    strchr text byte = none ↔ byte ∉ text := by
  rw [strchr, List.findIdx?_eq_none_iff]
  constructor
  · intro absent member
    have other := absent byte member
    rw [beq_self_eq_true] at other
    cases other
  · intro absent other member
    rw [beq_eq_false_iff_ne]
    rintro rfl
    exact absent member

/-- The match is in front of every other occurrence. -/
theorem strchr_append
    {front : List UInt8} {byte : UInt8} (absent : byte ∉ front)
    (rest : List UInt8) :
    strchr (front ++ byte :: rest) byte = some front.length := by
  rw [strchr, List.findIdx?_append]
  have missing := strchr_none.mpr absent
  rw [strchr] at missing
  rw [missing]
  simp [List.findIdx?_cons]

theorem strchr_some
    {text : List UInt8} {byte : UInt8} {offset : Nat}
    (found : strchr text byte = some offset) :
    ∃ front rest,
      text = front ++ byte :: rest ∧ byte ∉ front ∧
        offset = front.length := by
  have present : byte ∈ text := by
    apply Classical.byContradiction
    intro absent
    rw [strchr_none.mpr absent] at found
    cases found
  rcases List.eq_append_cons_of_mem present with
    ⟨front, rest, rfl, absent⟩
  rw [strchr_append absent] at found
  cases found
  exact ⟨front, rest, rfl, absent, rfl⟩

/-- `strrchr`, as the offset of the match. -/
def strrchr : List UInt8 → UInt8 → Option Nat
  | [], _ => none
  | first :: rest, byte =>
      match strrchr rest byte with
      | some offset => some (offset + 1)
      | none => if first = byte then some 0 else none

theorem strrchr_of_not_mem
    {text : List UInt8} {byte : UInt8} (absent : byte ∉ text) :
    strrchr text byte = none := by
  induction text with
  | nil =>
      rfl
  | cons first rest induction =>
      rw [List.mem_cons, not_or] at absent
      simp only [strrchr, induction absent.2, if_neg (Ne.symm absent.1)]

/-- The match is behind every other occurrence. -/
theorem strrchr_append
    (front : List UInt8) {byte : UInt8} {rest : List UInt8}
    (absent : byte ∉ rest) :
    strrchr (front ++ byte :: rest) byte = some front.length := by
  induction front with
  | nil =>
      simp only [List.nil_append, strrchr, strrchr_of_not_mem absent,
        if_true, List.length_nil]
  | cons first front induction =>
      simp only [List.cons_append, strrchr, induction, List.length_cons]

end Nsproxy.Lib.CString
