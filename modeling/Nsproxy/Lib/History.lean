import Mathlib.Tactic.Common

/-!
# Histories

A history is the list of what happened, oldest entry first.  `Throughout`
says that every entry was permitted by the history in front of it, which is
how an order between entries is stated.

An entry which is permitted whatever happened before is `Free`; appending
free entries to a history preserves `Throughout`.
-/

namespace Nsproxy.Lib.History

variable {Entry : Type}

/-- Every entry was permitted by the history in front of it. -/
def Throughout
    (permitted : List Entry → Entry → Prop) (history : List Entry) :
    Prop :=
  ∀ before entry after,
    history = before ++ entry :: after → permitted before entry

/-- The entry is permitted whatever happened before. -/
def Free
    (permitted : List Entry → Entry → Prop) (entry : Entry) : Prop :=
  ∀ before, permitted before entry

theorem throughout_nil (permitted : List Entry → Entry → Prop) :
    Throughout permitted [] := by
  intro before entry after equal
  cases before with
  | nil =>
      cases equal
  | cons first rest =>
      cases equal

/-- One more entry is permitted by the whole history before it. -/
theorem throughout_concat
    {permitted : List Entry → Entry → Prop}
    {history : List Entry} {last : Entry} :
    Throughout permitted (history ++ [last]) ↔
      Throughout permitted history ∧ permitted history last := by
  constructor
  · intro sound
    constructor
    · intro before entry after equal
      apply sound before entry (after ++ [last])
      simp [equal]
    · exact sound history last [] rfl
  · rintro ⟨sound, allowed⟩ before entry after equal
    rcases List.eq_nil_or_concat after with rfl | ⟨front, back, rfl⟩
    · have parts := List.append_inj' equal rfl
      have same := List.head_eq_of_cons_eq parts.2
      rw [← parts.1, ← same]
      exact allowed
    · apply sound before entry front
      have parts :
          history ++ [last] = (before ++ entry :: front) ++ [back] := by
        simpa using equal
      exact (List.append_inj' parts rfl).1

theorem throughout_append_free
    {permitted : List Entry → Entry → Prop}
    {history entries : List Entry}
    (sound : Throughout permitted history)
    (free : ∀ entry ∈ entries, Free permitted entry) :
    Throughout permitted (history ++ entries) := by
  induction entries generalizing history with
  | nil =>
      simpa using sound
  | cons first rest induction =>
      have longer : Throughout permitted (history ++ [first]) :=
        throughout_concat.mpr
          ⟨sound, free first List.mem_cons_self history⟩
      have remaining :=
        induction longer fun entry member =>
          free entry (List.mem_cons_of_mem first member)
      simpa using remaining

end Nsproxy.Lib.History
