import Mathlib.Tactic.Common

/-!
# Tables without repetitions

A table keeps its entries in the order in which they came, each of them once.
What it holds after a sequence of additions depends only on which entries were
added; their order and how often they were added does not matter.
-/

namespace Nsproxy.Lib.Table

variable {Entry : Type} [DecidableEq Entry]

/-- An entry which is not in the table yet becomes its last one. -/
def insertNew (table : List Entry) (entry : Entry) : List Entry :=
  if entry ∈ table then table else table ++ [entry]

@[simp]
theorem mem_insertNew {table : List Entry} {entry other : Entry} :
    other ∈ insertNew table entry ↔ other ∈ table ∨ other = entry := by
  by_cases present : entry ∈ table
  · rw [insertNew, if_pos present]
    constructor
    · exact .inl
    · rintro (older | rfl)
      · exact older
      · exact present
  · rw [insertNew, if_neg present, List.mem_append, List.mem_singleton]

theorem nodup_insertNew
    {table : List Entry} (distinct : table.Nodup) (entry : Entry) :
    (insertNew table entry).Nodup := by
  by_cases present : entry ∈ table
  · rw [insertNew, if_pos present]
    exact distinct
  · rw [insertNew, if_neg present]
    apply List.nodup_append.mpr
    refine ⟨distinct, List.pairwise_singleton _ entry, ?_⟩
    intro older member newer last same
    apply present
    rw [← List.mem_singleton.mp last, ← same]
    exact member

/-- The entries of the table after a sequence of additions. -/
theorem mem_foldl_insertNew
    {table entries : List Entry} {entry : Entry} :
    entry ∈ entries.foldl insertNew table ↔
      entry ∈ table ∨ entry ∈ entries := by
  induction entries generalizing table with
  | nil => simp
  | cons first rest induction =>
      rw [List.foldl_cons, induction, mem_insertNew, List.mem_cons,
        or_assoc]

/-- No entry is repeated after a sequence of additions. -/
theorem nodup_foldl_insertNew
    {table : List Entry} (distinct : table.Nodup)
    (entries : List Entry) :
    (entries.foldl insertNew table).Nodup := by
  induction entries generalizing table with
  | nil => exact distinct
  | cons first rest induction =>
      exact induction (nodup_insertNew distinct first)

end Nsproxy.Lib.Table
