import Mathlib.Tactic.Common
import Nsproxy.Conf
import Nsproxy.Dns.Names
import Nsproxy.Dns.Rules
import Nsproxy.Lib.Table

/-!
# What domain rules mean

The texts which are added as rules, and the domains which they match.  A text
is trimmed, put in lower case and stripped of its trailing dots; what is left
of it speaks of label lists.  `Speaks` states the meaning of one text without
any of the comparisons of suffixes which `nspconf_domain_matches` makes.

The rules form a table without repetitions, so their order and how often they
were added does not matter.
-/

namespace Nsproxy.Dns.RuleSemantics

open Nsproxy.Conf
open Nsproxy.Dns.Names
open Nsproxy.Dns.Rules
open Nsproxy.Lib.Table

/-! ## The meaning of a rule -/

/-- A text in lower case, without its trailing dots. -/
def plainForm (text : Text) : Text := stripDots (text.map lowerAscii)

/-- The form in which an added text is kept. -/
def ruleForm (added : Text) : Text :=
  plainForm (trimAsciiSpace (cstr added))

/-- The list has the other one as its end, and something in front of it. -/
def Extends (name base : List Label) : Prop :=
  ∃ front, front ≠ [] ∧ name = front ++ base

/-- The rule speaks of the domain, both in their plain form. -/
inductive Speaks (domain : Text) : Text → Prop where
  | only {base : Text} (same : domain = base) :
      Speaks domain (equalsSign :: base)
  | below {base : Text}
      (longer : Extends (domain.splitOn dot) (base.splitOn dot)) :
      Speaks domain (asterisk :: dot :: base)
  | within {base : Text} (named : base.head? ≠ some equalsSign)
      (whole : ¬ [asterisk, dot] <+: base)
      (covers :
        domain.splitOn dot = base.splitOn dot ∨
          Extends (domain.splitOn dot) (base.splitOn dot)) :
      Speaks domain base

/-! ## Texts and their labels -/

theorem intercalate_labels (text : Text) :
    [dot].intercalate (text.splitOn dot) = text :=
  List.intercalate_splitOn dot

theorem splitOn_inj {text other : Text} :
    text.splitOn dot = other.splitOn dot ↔ text = other := by
  constructor
  · intro same
    rw [← intercalate_labels text, same, intercalate_labels]
  · rintro rfl
    rfl

/-- The end of a text behind a dot is the end of its label list. -/
theorem endsBehindDot_iff_extends {text base : Text} :
    endsBehindDot text base = true ↔
      Extends (text.splitOn dot) (base.splitOn dot) := by
  rw [endsBehindDot_iff]
  constructor
  · rintro ⟨front, rfl⟩
    refine ⟨front.splitOn dot, List.splitOn_ne_nil _ _, ?_⟩
    rw [List.splitOn_append_cons_self]
  · rintro ⟨front, some_front, same⟩
    refine ⟨[dot].intercalate front, ?_⟩
    rw [← intercalate_labels text, same,
      intercalate_append some_front (List.splitOn_ne_nil _ _),
      intercalate_labels]

/-- One round of the loop decides whether the rule speaks of the domain. -/
theorem ruleMatches_iff_speaks {domain rule : Text} :
    ruleMatches domain rule = true ↔ Speaks domain rule := by
  cases rule with
  | nil =>
      simp only [ruleMatches, Bool.or_eq_true, beq_iff_eq]
      rw [endsBehindDot_iff_extends, ← splitOn_inj]
      constructor
      · intro covers
        exact .within (by decide) (by decide) covers
      · rintro ⟨⟩
        assumption
  | cons first rest =>
      simp only [ruleMatches]
      split
      · next equals =>
          subst equals
          rw [beq_iff_eq]
          constructor
          · exact .only
          · intro speaks
            cases speaks with
            | only same => exact same
            | within named => exact absurd rfl named
      · next other =>
          split
          · next star =>
              rcases star with ⟨rfl, behind⟩
              rcases List.head?_eq_some_iff.mp behind with ⟨base, rfl⟩
              rw [List.tail_cons, endsBehindDot_iff_extends]
              constructor
              · exact .below
              · intro speaks
                cases speaks with
                | below longer => exact longer
                | within _ whole =>
                    exact absurd ⟨base, rfl⟩ whole
          · next plain =>
              rw [Bool.or_eq_true, beq_iff_eq, endsBehindDot_iff_extends,
                ← splitOn_inj]
              constructor
              · intro covers
                refine .within ?_ ?_ covers
                · rw [List.head?_cons]
                  intro same
                  exact other (Option.some.inj same)
                · rintro ⟨tail, same⟩
                  apply plain
                  cases same
                  exact ⟨rfl, rfl⟩
              · intro speaks
                cases speaks with
                | only => exact absurd rfl other
                | below => exact absurd ⟨rfl, rfl⟩ plain
                | within _ _ covers => exact covers

/-! ## The table of rules -/

/-- The form of an added text, unless nothing is left to speak of. -/
def kept (added : Text) : Option Text :=
  if ruleForm added = [] ∨ ruleForm added = [equalsSign] then none
  else some (ruleForm added)

theorem kept_eq_some {added rule : Text} :
    kept added = some rule ↔
      ruleForm added = rule ∧ rule ≠ [] ∧ rule ≠ [equalsSign] := by
  rw [kept]
  split
  · next useless =>
      constructor
      · intro impossible
        cases impossible
      · rintro ⟨rfl, filled, named⟩
        exact absurd useless (not_or.mpr ⟨filled, named⟩)
  · next useful =>
      rw [Option.some.injEq]
      constructor
      · rintro rfl
        exact ⟨rfl, not_or.mp useful⟩
      · exact And.left

/-- One addition to the table. -/
theorem directDomains_addOne (conf : RuleConf) (added : Text) :
    (nspconfAddDirectDomain conf added).directDomains =
      (kept added).toList.foldl insertNew conf.directDomains := by
  have form :
      normalizeDomain (trimAsciiSpace (cstr added)) = ruleForm added :=
    normalizeDomain_eq _
  simp only [nspconfAddDirectDomain, form, kept]
  split
  · rfl
  · simp only [Option.toList_some, List.foldl_cons, List.foldl_nil,
      insertNew]
    split
    · rfl
    · rfl

/-- The table after a sequence of additions. -/
theorem directDomains_addAll (conf : RuleConf) (adds : List Text) :
    (adds.foldl nspconfAddDirectDomain conf).directDomains =
      (adds.filterMap kept).foldl insertNew conf.directDomains := by
  induction adds generalizing conf with
  | nil => rfl
  | cons added adds induction =>
      rw [List.foldl_cons, induction, directDomains_addOne]
      cases form : kept added with
      | none => rw [List.filterMap_cons_none form]; rfl
      | some rule => rw [List.filterMap_cons_some form]; rfl

/-- The rules in the table are the forms of what was added. -/
theorem mem_directDomains
    {conf : RuleConf} (empty : conf.directDomains = [])
    {adds : List Text} {rule : Text} :
    rule ∈ (adds.foldl nspconfAddDirectDomain conf).directDomains ↔
      ∃ added ∈ adds,
        ruleForm added = rule ∧ rule ≠ [] ∧ rule ≠ [equalsSign] := by
  rw [directDomains_addAll, mem_foldl_insertNew, empty, List.mem_filterMap]
  simp only [List.not_mem_nil, false_or, kept_eq_some]

/-- The domain is compared in its plain form. -/
theorem nspconfDomainMatches_eq
    (conf : RuleConf) {domain : Text} (nulFree : 0 ∉ domain)
    (short : domain.length ≤ servnameMaxlen) :
    nspconfDomainMatches conf domain =
      conf.directDomains.any (ruleMatches (plainForm domain)) := by
  rw [nspconfDomainMatches, cstr_eq_self nulFree,
    List.take_of_length_le short, normalizeDomain_eq]
  rfl

/-- The domains which match after a sequence of additions. -/
theorem domainMatches_addAll
    {conf : RuleConf} (empty : conf.directDomains = [])
    (adds : List Text) {domain : Text} (nulFree : 0 ∉ domain)
    (short : domain.length ≤ servnameMaxlen) :
    nspconfDomainMatches (adds.foldl nspconfAddDirectDomain conf) domain =
        true ↔
      ∃ added ∈ adds,
        ruleForm added ≠ [] ∧ ruleForm added ≠ [equalsSign] ∧
          Speaks (plainForm domain) (ruleForm added) := by
  rw [nspconfDomainMatches_eq _ nulFree short, List.any_eq_true]
  constructor
  · rintro ⟨rule, member, matched⟩
    rcases (mem_directDomains empty).mp member with
      ⟨added, among, rfl, filled, named⟩
    exact
      ⟨added, among, filled, named, ruleMatches_iff_speaks.mp matched⟩
  · rintro ⟨added, among, filled, named, speaks⟩
    exact
      ⟨ruleForm added,
        (mem_directDomains empty).mpr
          ⟨added, among, rfl, filled, named⟩,
        ruleMatches_iff_speaks.mpr speaks⟩

/--
After any sequence of additions to an empty table, a domain matches exactly
when one of the added texts speaks of it.  The rules are pairwise distinct,
and another sequence of the same texts, in whatever order and however often
they occur in it, gives the same answer.
-/
theorem domain_rules_exact
    {conf : RuleConf} (empty : conf.directDomains = [])
    (adds : List Text) {domain : Text} (nulFree : 0 ∉ domain)
    (short : domain.length ≤ 255) :
    (nspconfDomainMatches (adds.foldl nspconfAddDirectDomain conf)
        domain = true ↔
      ∃ added ∈ adds,
        ruleForm added ≠ [] ∧ ruleForm added ≠ [equalsSign] ∧
          Speaks (plainForm domain) (ruleForm added)) ∧
      (adds.foldl nspconfAddDirectDomain conf).directDomains.Nodup ∧
        ∀ others : List Text, (∀ added, added ∈ others ↔ added ∈ adds) →
          nspconfDomainMatches (others.foldl nspconfAddDirectDomain conf)
              domain =
            nspconfDomainMatches (adds.foldl nspconfAddDirectDomain conf)
              domain := by
  refine ⟨domainMatches_addAll empty adds nulFree short, ?_, ?_⟩
  · rw [directDomains_addAll, empty]
    exact nodup_foldl_insertNew List.Pairwise.nil _
  · intro others same
    rw [Bool.eq_iff_iff, domainMatches_addAll empty adds nulFree short,
      domainMatches_addAll empty others nulFree short]
    simp only [same]

/-- The rule ` *.Example.COM. ` speaks of `A.example.com`. -/
theorem domain_rules_example :
    nspconfDomainMatches
        ([ascii " *.Example.COM. ", ascii "="].foldl
          nspconfAddDirectDomain noRules)
        (ascii "A.example.com") = true ∧
      [asterisk, dot] <+: ruleForm (ascii " *.Example.COM. ") := by
  refine ⟨(domain_rules_exact rfl _ (by decide +kernel)
    (by decide +kernel)).1.mpr ?_, by decide +kernel⟩
  refine
    ⟨ascii " *.Example.COM. ", List.mem_cons_self, by decide +kernel,
      by decide +kernel, ?_⟩
  have form :
      ruleForm (ascii " *.Example.COM. ") =
        asterisk :: dot :: ascii "example.com" := by
    decide +kernel
  rw [form]
  apply Speaks.below
  exact ⟨[ascii "a"], List.cons_ne_nil _ _, by decide +kernel⟩

end Nsproxy.Dns.RuleSemantics
