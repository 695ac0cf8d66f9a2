import Mathlib.Data.List.Dedup
import Mathlib.Data.Nat.Find
import Mathlib.Order.Monotone.Basic
import Nsproxy.Dns.Rules
import Nsproxy.Lib.Table

/-!
# How the tables of rules grow

`next_capacity` walks a sequence in which every term is the sum of the two
before it, to the first term above the present capacity.  It gives up when a
sum is not greater than the term before, which is how an overflow would show.
The sequence starts with 0, 16 and 16, and there the third term is not greater
than the second one either: the walk gives up at its first step, whatever the
capacity is.

So a capacity from 16 on grows by one.  That is the term which was looked for
only where the terms are one apart from it, or where the term does overflow.
-/

namespace Nsproxy.Args.Growth

open Nsproxy.Conf
open Nsproxy.Dns.Names
open Nsproxy.Dns.Rules
open Nsproxy.Lib.Table

/-! ## The sequence -/

/-- The terms 0, 16, 16, 32, 48, 80 and so on. -/
def term : Nat → Nat
  | 0 => 0
  | 1 => 16
  | index + 2 => term index + term (index + 1)

/-- The number is in the sequence. -/
def IsTerm (capacity : Nat) : Prop := ∃ index, term index = capacity

theorem term_monotone_step (index : Nat) :
    term index ≤ term (index + 1) := by
  cases index with
  | zero => decide
  | succ index => exact Nat.le_add_left _ _

theorem term_monotone : Monotone term :=
  monotone_nat_of_le_succ term_monotone_step

/-- The sequence has no bound. -/
theorem index_le_term (index : Nat) : index ≤ term (index + 1) := by
  induction index using Nat.twoStepInduction with
  | zero => decide
  | one => decide
  | more index _ induction =>
      have positive : 16 ≤ term (index + 1) :=
        term_monotone (Nat.le_add_left 1 index)
      rw [term]
      omega

/-- There is no term between 16 and 32, nor below 16 but for 0. -/
theorem small_terms {capacity : Nat} (is_term : IsTerm capacity)
    (small : capacity < 32) : capacity = 0 ∨ capacity = 16 := by
  rcases is_term with ⟨index, rfl⟩
  cases index with
  | zero => exact .inl rfl
  | succ index =>
      cases index with
      | zero => exact .inr rfl
      | succ index =>
          cases index with
          | zero => exact .inr rfl
          | succ index =>
              have large : 32 ≤ term (index + 1 + 1 + 1) :=
                term_monotone (show 3 ≤ index + 3 from Nat.le_add_left _ _)
              exact absurd small (Nat.not_lt.mpr large)

/-- The least term above a capacity. -/
structure LeastAbove (capacity least : Nat) : Prop where
  is_term : IsTerm least
  above : capacity < least
  least : ∀ index, capacity < term index → least ≤ term index

theorem exists_leastAbove (capacity : Nat) :
    ∃ least, LeastAbove capacity least := by
  have some_above : ∃ index, capacity < term index :=
    ⟨capacity + 2, index_le_term (capacity + 1)⟩
  classical
  refine ⟨term (Nat.find some_above), ⟨_, rfl⟩,
    Nat.find_spec some_above, ?_⟩
  intro index above
  exact term_monotone (Nat.find_min' some_above above)

theorem LeastAbove.unique
    {capacity first second : Nat} (one : LeastAbove capacity first)
    (two : LeastAbove capacity second) : first = second := by
  rcases one.is_term with ⟨index, rfl⟩
  rcases two.is_term with ⟨other, rfl⟩
  exact Nat.le_antisymm (one.least other two.above)
    (two.least index one.above)

/-! ## What the function returns -/

/--
The capacity is followed by the least term above it, and by itself and one
where that term is no `size_t`.
-/
def Geometric (capacity : Nat) : Prop :=
  ∃ least,
    LeastAbove capacity least ∧
      nextCapacity capacity =
        if least < 2 ^ 64 then least else (capacity + 1) % 2 ^ 64

/--
The capacity is below 16, or one below a term, or so large that every term
above it overflows.
-/
def NearTerm (capacity : Nat) : Prop :=
  capacity < 16 ∨ IsTerm (capacity + 1) ∨
    ∀ index, capacity < term index → 2 ^ 64 ≤ term index

theorem leastAbove_small {capacity : Nat} (small : capacity < 16) :
    LeastAbove capacity 16 where
  is_term := ⟨1, rfl⟩
  above := small
  least := by
    intro index above
    cases index with
    | zero => exact absurd above (Nat.not_lt_zero capacity)
    | succ index => exact term_monotone (Nat.le_add_left 1 index)

theorem leastAbove_succ
    {capacity : Nat} (is_term : IsTerm (capacity + 1)) :
    LeastAbove capacity (capacity + 1) where
  is_term := is_term
  above := Nat.lt_succ_self capacity
  least _ above := above

theorem Geometric.of_nearTerm
    {capacity : Nat} (near : NearTerm capacity) :
    Geometric capacity := by
  by_cases small : capacity < 16
  · refine ⟨16, leastAbove_small small, ?_⟩
    rw [nextCapacity_small small]
    rfl
  · have returned := nextCapacity_large (Nat.not_lt.mp small)
    rcases near with below | next | overflows
    · exact absurd below small
    · refine ⟨capacity + 1, leastAbove_succ next, ?_⟩
      rw [returned]
      by_cases fits : capacity + 1 < 2 ^ 64
      · rw [if_pos fits, Nat.mod_eq_of_lt fits]
      · rw [if_neg fits]
    · rcases exists_leastAbove capacity with ⟨least, above⟩
      refine ⟨least, above, ?_⟩
      rcases above.is_term with ⟨index, rfl⟩
      rw [if_neg (Nat.not_lt.mpr (overflows index above.above))]
      exact returned

theorem Geometric.nearTerm
    {capacity : Nat} (geometric : Geometric capacity) : NearTerm capacity := by
  by_cases small : capacity < 16
  · exact .inl small
  · apply Or.inr
    rcases geometric with ⟨least, above, returned⟩
    rw [nextCapacity_large (Nat.not_lt.mp small)] at returned
    by_cases small_least : least < 2 ^ 64
    · rw [if_pos small_least] at returned
      have bounded : capacity + 1 ≤ least := above.above
      rw [Nat.mod_eq_of_lt (Nat.lt_of_le_of_lt bounded small_least)]
        at returned
      exact .inl (returned ▸ above.is_term)
    · apply Or.inr
      intro index beyond
      exact Nat.le_trans (Nat.not_lt.mp small_least)
        (above.least index beyond)

/-! ## A growing table -/

/-- The entries of a table, and the number for which there is memory. -/
structure Growing (Entry : Type) where
  entries : List Entry
  capacity : Nat

section Growing

variable {Entry : Type} [DecidableEq Entry]

/-- The start of both tables. -/
def Growing.empty : Growing Entry where
  entries := []
  capacity := 0

/-- What both functions do with an entry. -/
def Growing.add (table : Growing Entry) (entry : Entry) :
    Growing Entry where
  entries := insertNew table.entries entry
  capacity :=
    if entry ∉ table.entries ∧ table.entries.length = table.capacity then
      nextCapacity table.capacity
    else
      table.capacity

/-- The table after a sequence of additions. -/
def grown (entries : List Entry) : Growing Entry :=
  entries.foldl Growing.add Growing.empty

theorem grown_concat (entries : List Entry) (entry : Entry) :
    grown (entries ++ [entry]) = (grown entries).add entry := by
  rw [grown, grown, List.foldl_append]
  rfl

/-- How many entries a sequence of additions stores. -/
theorem length_grown (entries : List Entry) :
    (grown entries).entries.length = entries.dedup.length := by
  have folded :
      (grown entries).entries = entries.foldl insertNew [] := by
    induction entries using List.reverseRecOn with
    | nil => rfl
    | append_singleton front entry induction =>
        rw [grown_concat, List.foldl_append, ← induction]
        rfl
  rw [folded]
  apply List.Perm.length_eq
  apply (List.perm_ext_iff_of_nodup
    (nodup_foldl_insertNew List.nodup_nil entries)
    entries.nodup_dedup).mpr
  intro entry
  simp [mem_foldl_insertNew]

theorem length_add (table : Growing Entry) (entry : Entry) :
    (table.add entry).entries.length =
      table.entries.length + if entry ∈ table.entries then 0 else 1 := by
  by_cases present : entry ∈ table.entries
  · simp [Growing.add, insertNew, present]
  · simp [Growing.add, insertNew, present]

/-- The capacity of a table with at most 17 entries. -/
theorem capacity_grown
    {entries : List Entry}
    (few : (grown entries).entries.length ≤ 17) :
    (grown entries).capacity =
      if (grown entries).entries.length = 0 then 0
      else max 16 (grown entries).entries.length := by
  induction entries using List.reverseRecOn with
  | nil => rfl
  | append_singleton front entry induction =>
      rw [grown_concat] at few ⊢
      rw [length_add] at few ⊢
      by_cases present : entry ∈ (grown front).entries
      · rw [if_pos present] at few ⊢
        have kept :
            ((grown front).add entry).capacity =
              (grown front).capacity := by
          simp [Growing.add, present]
        rw [kept, Nat.add_zero]
        exact induction few
      · rw [if_neg present] at few ⊢
        have before := induction (by omega)
        simp only [Growing.add, present, not_false_eq_true, true_and]
        rw [if_neg (Nat.succ_ne_zero _)]
        by_cases full :
            (grown front).entries.length = (grown front).capacity
        · rw [if_pos full]
          by_cases small : (grown front).capacity < 16
          · rw [nextCapacity_small small]
            omega
          · rw [nextCapacity_large (Nat.not_lt.mp small)]
            omega
        · rw [if_neg full, before]
          by_cases empty : (grown front).entries.length = 0
          · rw [if_pos empty] at before
            exact absurd (empty.trans before.symm) full
          · rw [if_neg empty] at before ⊢
            omega

/-- Somewhere on the way the table has exactly so many entries. -/
theorem exists_front
    (entries : List Entry) {count : Nat}
    (reached : count ≤ (grown entries).entries.length) :
    ∃ front back,
      entries = front ++ back ∧
        (grown front).entries.length = count := by
  induction entries using List.reverseRecOn with
  | nil =>
      have zero : count = 0 := Nat.le_zero.mp reached
      exact ⟨[], [], rfl, zero.symm⟩
  | append_singleton front entry induction =>
      by_cases earlier : count ≤ (grown front).entries.length
      · rcases induction earlier with ⟨first, back, split, exactly⟩
        refine ⟨first, back ++ [entry], ?_, exactly⟩
        rw [split, List.append_assoc]
      · refine ⟨front ++ [entry], [], (List.append_nil _).symm, ?_⟩
        rw [grown_concat, length_add] at reached ⊢
        by_cases present : entry ∈ (grown front).entries
        · rw [if_pos present] at reached
          exact absurd reached earlier
        · rw [if_neg present] at reached ⊢
          omega

/-- More additions store no fewer entries. -/
theorem length_grown_append (front back : List Entry) :
    (grown front).entries.length ≤
      (grown (front ++ back)).entries.length := by
  induction back using List.reverseRecOn with
  | nil => rw [List.append_nil]
  | append_singleton back entry induction =>
      rw [← List.append_assoc, grown_concat, length_add]
      exact Nat.le_trans induction (Nat.le_add_right _ _)

/-- A table of at most 16 entries has the capacity 0 or 16. -/
theorem isTerm_grown
    {entries : List Entry}
    (few : (grown entries).entries.length ≤ 16) :
    IsTerm (grown entries).capacity := by
  rw [capacity_grown (Nat.le_succ_of_le few)]
  split
  · exact ⟨0, rfl⟩
  · exact ⟨1, (Nat.max_eq_left few).symm⟩

/-- The capacity for 17 entries is no term. -/
theorem not_isTerm_grown
    {entries : List Entry}
    (beyond : (grown entries).entries.length = 17) :
    ¬ IsTerm (grown entries).capacity := by
  rw [capacity_grown (Nat.le_of_eq beyond), beyond]
  intro is_term
  rcases small_terms is_term (by decide) with zero | sixteen
  · exact absurd zero (by decide)
  · exact absurd sixteen (by decide)

end Growing

/-! ## Runs -/

/-- A call which adds a rule to the configuration. -/
inductive Call where
  | cidr (block : CidrBlock)
  | domain (text : Text)
deriving DecidableEq

/-- The block which a call adds. -/
def Call.block? : Call → Option CidrBlock
  | .cidr block => some block
  | .domain _ => none

/-- The rule which a call adds, unless it is empty. -/
def Call.rule? : Call → Option Text
  | .cidr _ => none
  | .domain text =>
      let trimmed := normalizeDomain (trimAsciiSpace (cstr text))
      if trimmed = [] ∨ trimmed = [equalsSign] then none else some trimmed

/-- `nspconf_add_direct_cidr_raw` or `nspconf_add_direct_domain`. -/
def Call.run (conf : RuleConf) : Call → RuleConf
  | .cidr block =>
      { conf with
        toNspconf := nspconfAddDirectCidrRaw conf.toNspconf block }
  | .domain text => nspconfAddDirectDomain conf text

/-- The configuration with empty tables. -/
def cleared (conf : RuleConf) : RuleConf :=
  { conf with
    directCidrs := []
    directCidrCapacity := 0
    directDomains := []
    directDomainCapacity := 0 }

/-- The configuration after a sequence of calls. -/
def called (conf : RuleConf) (calls : List Call) : RuleConf :=
  calls.foldl Call.run (cleared conf)

/-- The table of blocks. -/
def cidrTable (conf : RuleConf) : Growing CidrBlock :=
  ⟨conf.directCidrs, conf.directCidrCapacity⟩

/-- The table of domain rules. -/
def domainTable (conf : RuleConf) : Growing Text :=
  ⟨conf.directDomains, conf.directDomainCapacity⟩

/--
Every capacity which a sequence of calls reaches is a term, and where more
than 17 entries are stored, not every addition past the sixteenth one changes
the capacity.
-/
structure Grows {Entry : Type} (table : List Call → Growing Entry)
    (calls : List Call) : Prop where
  terms :
    ∀ front back, calls = front ++ back → IsTerm (table front).capacity
  spared :
    17 < (table calls).entries.length →
      ∃ front call back,
        calls = front ++ call :: back ∧
          16 ≤ (table front).entries.length ∧
          (table (front ++ [call])).entries.length =
            (table front).entries.length + 1 ∧
          (table (front ++ [call])).capacity = (table front).capacity

theorem called_concat (conf : RuleConf) (calls : List Call) (call : Call) :
    called conf (calls ++ [call]) = Call.run (called conf calls) call := by
  rw [called, called, List.foldl_append]
  rfl

theorem cidrTable_addRaw (conf : Nspconf) (block : CidrBlock) :
    (⟨(nspconfAddDirectCidrRaw conf block).directCidrs,
        (nspconfAddDirectCidrRaw conf block).directCidrCapacity⟩ :
      Growing CidrBlock) =
      Growing.add ⟨conf.directCidrs, conf.directCidrCapacity⟩ block := by
  by_cases present : block ∈ conf.directCidrs
  · simp [nspconfAddDirectCidrRaw, Growing.add, insertNew, present]
  · simp [nspconfAddDirectCidrRaw, Growing.add, insertNew, present]

/-- The table of blocks grows by the blocks which are added. -/
theorem cidrTable_called (conf : RuleConf) (calls : List Call) :
    cidrTable (called conf calls) = grown (calls.filterMap Call.block?) := by
  induction calls using List.reverseRecOn with
  | nil => rfl
  | append_singleton front call induction =>
      rw [called_concat, List.filterMap_append]
      cases call with
      | cidr block =>
          have added :
              [Call.cidr block].filterMap Call.block? = [block] := rfl
          rw [added, grown_concat, ← induction]
          exact cidrTable_addRaw _ block
      | domain text =>
          have added :
              [Call.domain text].filterMap Call.block? = [] := rfl
          rw [added, List.append_nil, ← induction]
          simp only [Call.run, nspconfAddDirectDomain]
          split
          · rfl
          · split
            · rfl
            · rfl

/-- The table of domain rules grows by the rules which are added. -/
theorem domainTable_called (conf : RuleConf) (calls : List Call) :
    domainTable (called conf calls) =
      grown (calls.filterMap Call.rule?) := by
  induction calls using List.reverseRecOn with
  | nil => rfl
  | append_singleton front call induction =>
      rw [called_concat, List.filterMap_append]
      cases call with
      | cidr block =>
          have added : [Call.cidr block].filterMap Call.rule? = [] := rfl
          rw [added, List.append_nil, ← induction]
          rfl
      | domain text =>
          by_cases empty :
              normalizeDomain (trimAsciiSpace (cstr text)) = [] ∨
                normalizeDomain (trimAsciiSpace (cstr text)) =
                  [equalsSign]
          · have added :
                [Call.domain text].filterMap Call.rule? = [] := by
              simp [Call.rule?, empty]
            rw [added, List.append_nil, ← induction]
            simp only [Call.run, nspconfAddDirectDomain, if_pos empty]
          · have added :
                [Call.domain text].filterMap Call.rule? =
                  [normalizeDomain (trimAsciiSpace (cstr text))] := by
              simp [Call.rule?, empty]
            rw [added, grown_concat, ← induction]
            simp only [Call.run, nspconfAddDirectDomain, if_neg empty]
            by_cases present :
                normalizeDomain (trimAsciiSpace (cstr text)) ∈
                  (called conf front).directDomains
            · simp [domainTable, Growing.add, insertNew, present]
            · simp [domainTable, Growing.add, insertNew, present]

section Grows

variable {Entry : Type} {table : List Call → Growing Entry}
  {addition : Call → Option Entry}

/-- A prefix of the entries which calls add is added by a prefix of them. -/
theorem exists_calls
    {calls : List Call} {front back : List Entry}
    (split : calls.filterMap addition = front ++ back) :
    ∃ first last,
      calls = first ++ last ∧ first.filterMap addition = front := by
  rcases List.filterMap_eq_append_iff.mp split with
    ⟨first, last, whole, same, _⟩
  exact ⟨first, last, whole, same⟩

/-- A table follows the sequence exactly as long as it has 16 entries. -/
theorem grows_iff
    [DecidableEq Entry]
    (tracks : ∀ calls, table calls = grown (calls.filterMap addition))
    (calls : List Call) :
    Grows table calls ↔
      (calls.filterMap addition).dedup.length ≤ 16 := by
  rw [← length_grown]
  constructor
  · intro grows
    by_contra many
    rcases exists_front (calls.filterMap addition)
        (Nat.not_le.mp many) with
      ⟨front, back, split, exactly⟩
    rcases exists_calls split with ⟨first, last, whole, same⟩
    have reached := grows.terms first last whole
    rw [tracks, same] at reached
    exact not_isTerm_grown exactly reached
  · intro few
    constructor
    · intro front back whole
      rw [tracks]
      apply isTerm_grown
      apply Nat.le_trans _ few
      rw [whole, List.filterMap_append]
      exact length_grown_append _ _
    · intro beyond
      rw [tracks] at beyond
      omega

end Grows

/-! ## Where the growth is geometric -/

/--
A capacity is followed by the next term of the sequence exactly where it is
below 16, one below a term, or too large; and a run of additions to empty
tables grows them along the sequence exactly where it stores at most 16 blocks
and at most 16 domain rules.
-/
theorem geometric_growth_iff
    (current : UInt64) (conf : RuleConf) (calls : List Call) :
    (Geometric current.toNat ↔ NearTerm current.toNat) ∧
      ((Grows (fun front => cidrTable (called conf front)) calls ∧
          Grows (fun front => domainTable (called conf front)) calls) ↔
        (calls.filterMap Call.block?).dedup.length ≤ 16 ∧
          (calls.filterMap Call.rule?).dedup.length ≤ 16) := by
  constructor
  · exact ⟨Geometric.nearTerm, Geometric.of_nearTerm⟩
  · exact
      and_congr (grows_iff (cidrTable_called conf) calls)
        (grows_iff (domainTable_called conf) calls)

/-- The capacity 16 is followed by 17, and the next term is 32. -/
theorem not_geometric_sixteen :
    nextCapacity 16 = 17 ∧ LeastAbove 16 32 ∧ ¬ Geometric 16 := by
  have returned : nextCapacity 16 = 17 :=
    nextCapacity_large (Nat.le_refl 16)
  have above : LeastAbove 16 32 := by
    refine ⟨⟨3, rfl⟩, by decide, ?_⟩
    intro index beyond
    apply Nat.not_lt.mp
    intro small
    rcases small_terms ⟨index, rfl⟩ small with zero | sixteen
    · exact absurd (zero ▸ beyond) (by decide)
    · exact absurd (sixteen ▸ beyond) (Nat.lt_irrefl 16)
  refine ⟨returned, above, ?_⟩
  rintro ⟨least, other, next⟩
  rw [other.unique above, returned] at next
  exact absurd next (by decide)

end Nsproxy.Args.Growth
