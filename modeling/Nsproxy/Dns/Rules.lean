import Mathlib.Data.List.DropRight
import Mathlib.Tactic.Common
import Nsproxy.Conf
import Nsproxy.Dns.Names

/-!
# Domain rules

The domain rules of `main.c`, which are kept and compared as C strings.  A
rule speaks of a domain, of its subdomains, or of both; `Rule.Covers` says
which names it covers, label by label.

A decoded name is the text of its labels, whatever their bytes are.  The
comparison of texts agrees with that of labels for all rules exactly when no
label contains a dot or a NUL, or when neither comparison ever succeeds.
-/

namespace Nsproxy.Dns.Rules

open Nsproxy.Conf
open Nsproxy.Dns.Names

/-! ## The rules of the configuration -/

/-- `struct nspconf` with its domain rules. -/
structure RuleConf extends Nspconf where
  directDomains : List Text
  directDomainCapacity : Nat
deriving DecidableEq, Repr

def equalsSign : UInt8 := 0x3d
def asterisk : UInt8 := 0x2a

/-- The white space of `trim_ascii_space`. -/
def isAsciiSpace (byte : UInt8) : Bool :=
  byte == 0x20 || byte == 0x09 || byte == 0x0d || byte == 0x0a ||
    byte == 0x0b || byte == 0x0c

/-- `trim_ascii_space`. -/
def trimAsciiSpace (str : Text) : Text :=
  (str.dropWhile isAsciiSpace).rdropWhile isAsciiSpace

/-- The trailing dots which `normalize_domain` cuts off. -/
def stripDots (domain : Text) : Text :=
  domain.rdropWhile fun byte => byte == dot

/-- `normalize_domain`. -/
def normalizeDomain (domain : Text) : Text :=
  match domain with
  | [] => stripDots []
  | first :: rest =>
      if first = equalsSign then
        stripDots (first :: rest.map lowerAscii)
      else
        stripDots (lowerAscii first :: rest.map lowerAscii)

/-- `nspconf_add_direct_domain`. -/
def nspconfAddDirectDomain (conf : RuleConf) (domain : Text) : RuleConf :=
  let trimmed := normalizeDomain (trimAsciiSpace (cstr domain))
  if trimmed = [] ∨ trimmed = [equalsSign] then
    conf
  else if trimmed ∈ conf.directDomains then
    conf
  else
    { conf with
      directDomains := conf.directDomains ++ [trimmed]
      directDomainCapacity :=
        if conf.directDomains.length = conf.directDomainCapacity then
          nextCapacity conf.directDomainCapacity
        else
          conf.directDomainCapacity }

/-- The configurations which the files of rules lead to. -/
inductive Loaded : RuleConf → Prop where
  | start (conf : RuleConf) (empty : conf.directDomains = []) :
      Loaded conf
  | add (before : Loaded conf) (domain : Text) :
      Loaded (nspconfAddDirectDomain conf domain)

/-- The text ends with the suffix, and a dot is in front of it. -/
def endsBehindDot (normalized suffix : Text) : Bool :=
  if normalized.length ≤ suffix.length then
    false
  else
    normalized.drop (normalized.length - suffix.length) == suffix &&
      normalized[normalized.length - suffix.length - 1]? == some dot

/-- One round of the loop of `nspconf_domain_matches`. -/
def ruleMatches (normalized rule : Text) : Bool :=
  match rule with
  | [] => normalized == [] || endsBehindDot normalized []
  | first :: rest =>
      if first = equalsSign then
        normalized == rest
      else if first = asterisk ∧ rest.head? = some dot then
        endsBehindDot normalized rest.tail
      else
        normalized == first :: rest ||
          endsBehindDot normalized (first :: rest)

/-- `nspconf_domain_matches`. -/
def nspconfDomainMatches (conf : RuleConf) (domain : Text) : Bool :=
  conf.directDomains.any
    (ruleMatches (normalizeDomain ((cstr domain).take servnameMaxlen)))

/-! ## What a rule speaks of -/

/-- The labels of a rule, and which names it covers. -/
inductive Rule where
  /-- `=`: the domain. -/
  | only (labels : List Label)
  /-- `*.`: its subdomains. -/
  | below (labels : List Label)
  /-- Both. -/
  | within (labels : List Label)
deriving DecidableEq, Repr

/-- The rule which a line of the file states. -/
def ruleOf (rule : Text) : Rule :=
  match rule with
  | [] => .within ([].splitOn dot)
  | first :: rest =>
      if first = equalsSign then
        .only (rest.splitOn dot)
      else if first = asterisk ∧ rest.head? = some dot then
        .below (rest.tail.splitOn dot)
      else
        .within ((first :: rest).splitOn dot)

/-- The labels without the case of their letters. -/
def caseless (labels : List Label) : List Label :=
  labels.map fun label => label.map lowerAscii

/-- The first name is below the second one. -/
def Below (name domain : List Label) : Prop :=
  ∃ front, front ≠ [] ∧ caseless name = front ++ caseless domain

/-- The rule covers the name with these labels. -/
def Rule.Covers (name : List Label) : Rule → Prop
  | .only labels => caseless name = caseless labels
  | .below labels => Below name labels
  | .within labels => caseless name = caseless labels ∨ Below name labels

/-! ## Texts -/

theorem lowerAscii_lowerAscii (byte : UInt8) :
    lowerAscii (lowerAscii byte) = lowerAscii byte := by
  have all :
      ∀ bits : BitVec 8,
        lowerAscii (lowerAscii ⟨bits⟩) = lowerAscii ⟨bits⟩ := by
    decide +kernel
  exact all byte.toBitVec

theorem lowerAscii_eq_iff {mark : UInt8} (isMark : mark = dot ∨ mark = 0)
    (byte : UInt8) :
    lowerAscii byte = mark ↔ byte = mark := by
  have all :
      ∀ bits : BitVec 8,
        (lowerAscii ⟨bits⟩ = dot ↔ (⟨bits⟩ : UInt8) = dot) ∧
          (lowerAscii ⟨bits⟩ = 0 ↔ (⟨bits⟩ : UInt8) = 0) := by
    decide +kernel
  rcases isMark with rfl | rfl
  · exact (all byte.toBitVec).1
  · exact (all byte.toBitVec).2

/-- The bytes are those of a text in lower case. -/
def Lower (text : Text) : Prop := ∀ byte ∈ text, lowerAscii byte = byte

theorem Lower.map_eq {text : Text} (lower : Lower text) :
    text.map lowerAscii = text := by
  have same : text.map lowerAscii = text.map id := by
    apply List.map_congr_left
    intro byte member
    exact lower byte member
  rw [same, List.map_id]

theorem lower_map (text : Text) : Lower (text.map lowerAscii) := by
  intro byte member
  rcases List.mem_map.mp member with ⟨other, _, rfl⟩
  exact lowerAscii_lowerAscii other

theorem Lower.of_subset
    {text part : Text} (lower : Lower text) (subset : part ⊆ text) :
    Lower part := by
  intro byte member
  exact lower byte (subset member)

theorem stripDots_subset (text : Text) : stripDots text ⊆ text :=
  (List.rdropWhile_prefix _ _).subset

/-- A text in lower case loses its trailing dots alone. -/
theorem normalizeDomain_of_lower {text : Text} (lower : Lower text) :
    normalizeDomain text = stripDots text := by
  cases text with
  | nil => rfl
  | cons first rest =>
      have same : lowerAscii first = first := lower first List.mem_cons_self
      have others : rest.map lowerAscii = rest :=
        (lower.of_subset (List.subset_cons_self _ _)).map_eq
      simp only [normalizeDomain, same, others, ite_self]

theorem normalizeDomain_eq (text : Text) :
    normalizeDomain text = stripDots (text.map lowerAscii) := by
  cases text with
  | nil => rfl
  | cons first rest =>
      by_cases equals : first = equalsSign
      · subst equals
        rfl
      · simp only [normalizeDomain, if_neg equals]
        rfl

theorem stripDots_getLast
    {text : Text} (left : stripDots text ≠ []) :
    (stripDots text).getLast left ≠ dot := by
  have last := List.rdropWhile_last_not (fun byte => byte == dot) text left
  rw [beq_iff_eq] at last
  exact last

/-- A suffix with a dot in front of it. -/
theorem endsBehindDot_iff {normalized suffix : Text} :
    endsBehindDot normalized suffix = true ↔
      ∃ front, normalized = front ++ dot :: suffix := by
  constructor
  · intro ends
    simp only [endsBehindDot] at ends
    split at ends
    · cases ends
    · next longer =>
        rw [Bool.and_eq_true, beq_iff_eq, beq_iff_eq] at ends
        have inside :
            normalized.length - suffix.length - 1 < normalized.length := by
          omega
        rcases ends with ⟨tail, before⟩
        rw [List.getElem?_eq_getElem inside, Option.some.injEq] at before
        have next :
            normalized.length - suffix.length - 1 + 1 =
              normalized.length - suffix.length := by
          omega
        have behind :
            normalized.drop (normalized.length - suffix.length - 1) =
              dot :: suffix := by
          rw [List.drop_eq_getElem_cons inside, before, next, tail]
        refine
          ⟨normalized.take (normalized.length - suffix.length - 1), ?_⟩
        rw [← behind, List.take_append_drop]
  · rintro ⟨front, rfl⟩
    have longer :
        ¬ (front ++ dot :: suffix).length ≤ suffix.length := by
      rw [List.length_append, List.length_cons]
      omega
    have position :
        (front ++ dot :: suffix).length - suffix.length =
          front.length + 1 := by
      rw [List.length_append, List.length_cons]
      omega
    have split :
        front ++ dot :: suffix = (front ++ [dot]) ++ suffix := by
      rw [List.append_assoc]
      rfl
    rw [endsBehindDot, if_neg longer, position, Bool.and_eq_true,
      beq_iff_eq, beq_iff_eq]
    constructor
    · rw [split]
      exact List.drop_left' (by rw [List.length_append]; rfl)
    · rw [Nat.add_sub_cancel, List.getElem?_append_right (Nat.le_refl _),
        Nat.sub_self]
      rfl

/-! ## The text of a name -/

/-- The labels with dots between them. -/
def joined (labels : List Label) : Text :=
  [dot].intercalate (caseless labels)

theorem spellFrom_eq {out : Text} (begun : out ≠ []) (labels : List Label) :
    spellFrom out labels = [dot].intercalate (out :: caseless labels) := by
  induction labels generalizing out with
  | nil =>
      rw [spellFrom, if_neg begun]
      exact List.intercalate_singleton.symm
  | cons label labels induction =>
      have more : out ++ dot :: label.map lowerAscii ≠ [] := by
        simp [begun]
      rw [spellFrom, if_neg begun, induction more]
      simp only [caseless, List.map_cons, List.intercalate_cons_cons]
      cases labels with
      | nil => simp [List.intercalate_singleton]
      | cons second rest =>
          simp [List.intercalate_cons_cons]

/-- The text of a name which is not the root. -/
theorem spell_eq
    {labels : List Label} (some_label : labels ≠ [])
    (filled : ∀ label ∈ labels, label ≠ []) :
    spell labels = joined labels := by
  cases labels with
  | nil => exact absurd rfl some_label
  | cons label labels =>
      have begun : label.map lowerAscii ≠ [] := by
        simpa using filled label List.mem_cons_self
      rw [spell, spellFrom, if_pos rfl, spellFrom_eq begun]
      rfl

/-- What a name becomes in `nspconf_domain_matches`. -/
def normalizedName (labels : List Label) : Text :=
  stripDots (cstr (spell labels))

theorem lower_spellFrom
    {out : Text} (lower : Lower out) (labels : List Label) :
    Lower (spellFrom out labels) := by
  induction labels generalizing out with
  | nil =>
      rw [spellFrom]
      split
      · intro byte member
        rw [List.mem_singleton.mp member]
        rfl
      · exact lower
  | cons label labels induction =>
      rw [spellFrom]
      split
      · exact induction (lower_map label)
      · refine induction ?_
        intro byte member
        rcases List.mem_append.mp member with before | behind
        · exact lower byte before
        · rcases List.mem_cons.mp behind with rfl | inside
          · rfl
          · exact lower_map label byte inside

theorem lower_spell (labels : List Label) : Lower (spell labels) := by
  apply lower_spellFrom
  intro byte impossible
  cases impossible

theorem cstr_subset (buffer : List UInt8) : cstr buffer ⊆ buffer :=
  List.takeWhile_subset _

/-- The buffer of `nspconf_domain_matches` holds every decoded name. -/
theorem nspconfDomainMatches_spell
    (conf : RuleConf) {labels : List Label}
    (short : (spell labels).length ≤ servnameMaxlen) :
    nspconfDomainMatches conf (spell labels) =
      conf.directDomains.any (ruleMatches (normalizedName labels)) := by
  have whole :
      (cstr (spell labels)).take servnameMaxlen = cstr (spell labels) := by
    apply List.take_of_length_le
    exact Nat.le_trans (List.takeWhile_prefix _).length_le short
  have lower : Lower (cstr (spell labels)) :=
    (lower_spell labels).of_subset (cstr_subset _)
  rw [nspconfDomainMatches, whole, normalizeDomain_of_lower lower]
  rfl

/-! ## The rules which are kept -/

/-- A rule as `nspconf_add_direct_domain` keeps it. -/
structure Stored (rule : Text) : Prop where
  filled : rule ≠ []
  named : rule ≠ [equalsSign]
  lower : Lower rule
  nulFree : 0 ∉ rule
  last : ∀ left, rule.getLast left ≠ dot

theorem stored_normalizeDomain
    {domain : Text} (nulFree : 0 ∉ domain)
    (filled : normalizeDomain domain ≠ [])
    (named : normalizeDomain domain ≠ [equalsSign]) :
    Stored (normalizeDomain domain) := by
  have same := normalizeDomain_eq domain
  refine ⟨filled, named, ?_, ?_, ?_⟩
  · rw [same]
    exact (lower_map domain).of_subset (stripDots_subset _)
  · rw [same]
    intro member
    rcases List.mem_map.mp (stripDots_subset _ member) with
      ⟨byte, inside, zero⟩
    rw [lowerAscii_eq_iff (.inr rfl)] at zero
    rw [zero] at inside
    exact nulFree inside
  · rw [same]
    exact stripDots_getLast

theorem nulFree_trim (domain : Text) :
    0 ∉ trimAsciiSpace (cstr domain) := by
  intro member
  have inside : (0 : UInt8) ∈ cstr domain :=
    List.dropWhile_subset _ ((List.rdropWhile_prefix _ _).subset member)
  have passed := List.mem_takeWhile_imp inside
  revert passed
  decide

/-- Every rule of the configuration is kept in this form. -/
theorem Loaded.stored
    {conf : RuleConf} (loaded : Loaded conf) :
    ∀ rule ∈ conf.directDomains, Stored rule := by
  induction loaded with
  | start conf empty =>
      intro rule member
      rw [empty] at member
      cases member
  | @add conf before domain induction =>
      intro rule member
      simp only [nspconfAddDirectDomain] at member
      split at member
      · exact induction rule member
      · next useful =>
          split at member
          · exact induction rule member
          · rcases List.mem_append.mp member with older | newer
            · exact induction rule older
            · rw [not_or] at useful
              rw [List.mem_singleton.mp newer]
              exact stored_normalizeDomain (nulFree_trim domain) useful.1
                useful.2

/-- A rule which is already in this form is kept as it is. -/
theorem directDomains_add
    (conf : RuleConf) (empty : conf.directDomains = []) {first : UInt8}
    {rest : Text} (visible : isAsciiSpace first = false)
    (stored : Stored (first :: rest)) :
    (nspconfAddDirectDomain conf (first :: rest ++ [dot])).directDomains =
      [first :: rest] := by
  have nulFree : 0 ∉ first :: rest ++ [dot] := by
    intro member
    rcases List.mem_append.mp member with inside | last
    · exact stored.nulFree inside
    · revert last
      decide
  have trimmed :
      trimAsciiSpace (cstr (first :: rest ++ [dot])) =
        first :: rest ++ [dot] := by
    have front :
        (first :: rest ++ [dot]).dropWhile isAsciiSpace =
          first :: rest ++ [dot] := by
      rw [List.cons_append, List.dropWhile_cons, visible]
      rfl
    rw [trimAsciiSpace, cstr_eq_self nulFree, front,
      List.rdropWhile_concat_neg]
    decide
  have lower : Lower (first :: rest ++ [dot]) := by
    intro byte member
    rcases List.mem_append.mp member with inside | last
    · exact stored.lower byte inside
    · rw [List.mem_singleton.mp last]
      rfl
  have normalized :
      normalizeDomain (first :: rest ++ [dot]) = first :: rest := by
    rw [normalizeDomain_of_lower lower, stripDots,
      List.rdropWhile_concat_pos _ _ _ rfl, List.rdropWhile_eq_self_iff]
    intro left
    rw [beq_iff_eq]
    exact stored.last left
  have useful :
      ¬ (first :: rest = [] ∨ first :: rest = [equalsSign]) :=
    not_or.mpr ⟨stored.filled, stored.named⟩
  have new : first :: rest ∉ conf.directDomains := by
    rw [empty]
    exact List.not_mem_nil
  simp only [nspconfAddDirectDomain, trimmed, normalized, if_neg useful,
    if_neg new]
  rw [empty]
  rfl

/-! ## Labels without dots and NULs -/

/-- No label could be mistaken for several ones, or for a part of it. -/
def CleanLabel (label : Label) : Prop := dot ∉ label ∧ 0 ∉ label

def Clean (labels : List Label) : Prop :=
  ∀ label ∈ labels, CleanLabel label

theorem cleanLabel_map (label : Label) :
    CleanLabel (label.map lowerAscii) ↔ CleanLabel label := by
  have kept :
      ∀ mark, mark = dot ∨ mark = 0 →
        (mark ∈ label.map lowerAscii ↔ mark ∈ label) := by
    intro mark isMark
    rw [List.mem_map]
    constructor
    · rintro ⟨byte, member, same⟩
      rw [lowerAscii_eq_iff isMark] at same
      rw [← same]
      exact member
    · intro member
      exact ⟨mark, member, (lowerAscii_eq_iff isMark mark).mpr rfl⟩
  rw [CleanLabel, CleanLabel, kept dot (.inl rfl), kept 0 (.inr rfl)]

theorem clean_caseless (labels : List Label) :
    Clean (caseless labels) ↔ Clean labels := by
  simp only [Clean, caseless, List.forall_mem_map, cleanLabel_map]

theorem mem_intercalate
    {byte : UInt8} {pieces : List Label} {piece : Label}
    (member : piece ∈ pieces) (inside : byte ∈ piece) :
    byte ∈ [dot].intercalate pieces := by
  induction pieces with
  | nil => cases member
  | cons first rest induction =>
      cases rest with
      | nil =>
          rw [List.intercalate_singleton, ← List.mem_singleton.mp member]
          exact inside
      | cons second rest =>
          rw [List.intercalate_cons_cons, List.mem_append]
          rcases List.mem_cons.mp member with rfl | later
          · exact .inl (List.mem_append_left _ inside)
          · exact .inr (induction later)

theorem mem_of_mem_intercalate
    {byte : UInt8} {pieces : List Label}
    (member : byte ∈ [dot].intercalate pieces) :
    byte = dot ∨ ∃ piece ∈ pieces, byte ∈ piece := by
  induction pieces with
  | nil => cases member
  | cons first rest induction =>
      cases rest with
      | nil =>
          rw [List.intercalate_singleton] at member
          exact .inr ⟨first, List.mem_cons_self, member⟩
      | cons second rest =>
          rw [List.intercalate_cons_cons, List.mem_append,
            List.mem_append, List.mem_singleton] at member
          rcases member with (inside | same) | later
          · exact .inr ⟨first, List.mem_cons_self, inside⟩
          · exact .inl same
          · rcases induction later with same | ⟨piece, among, inside⟩
            · exact .inl same
            · exact .inr ⟨piece, List.mem_cons_of_mem _ among, inside⟩

theorem intercalate_append
    {front back : List Label} (some_front : front ≠ [])
    (some_back : back ≠ []) :
    [dot].intercalate (front ++ back) =
      [dot].intercalate front ++ dot :: [dot].intercalate back := by
  induction front with
  | nil => exact absurd rfl some_front
  | cons first rest induction =>
      cases rest with
      | nil =>
          rw [List.singleton_append,
            List.intercalate_cons_of_ne_nil some_back,
            List.intercalate_singleton, List.append_assoc]
          rfl
      | cons second rest =>
          rw [List.cons_append, List.cons_append,
            List.intercalate_cons_cons, List.intercalate_cons_cons,
            ← List.cons_append, induction (List.cons_ne_nil _ _)]
          simp only [List.append_assoc]

theorem dot_not_mem_splitOn
    {text piece : Text} (member : piece ∈ text.splitOn dot) :
    dot ∉ piece := by
  induction text generalizing piece with
  | nil =>
      rw [List.splitOn_nil, List.mem_singleton] at member
      rw [member]
      exact List.not_mem_nil
  | cons first rest induction =>
      rw [List.splitOn_cons_eq_if_modifyHead] at member
      split at member
      · rcases List.mem_cons.mp member with rfl | later
        · exact List.not_mem_nil
        · exact induction later
      · next other =>
          cases pieces : rest.splitOn dot with
          | nil => exact absurd pieces (List.splitOn_ne_nil _ _)
          | cons head tail =>
              rw [pieces, List.modifyHead_cons] at member
              rcases List.mem_cons.mp member with rfl | later
              · intro inside
                rcases List.mem_cons.mp inside with same | deeper
                · exact other (beq_iff_eq.mpr same.symm)
                · apply induction _ deeper
                  rw [pieces]
                  exact List.mem_cons_self
              · apply induction
                rw [pieces]
                exact List.mem_cons_of_mem _ later

theorem mem_of_mem_splitOn
    {byte : UInt8} {text piece : Text}
    (member : piece ∈ text.splitOn dot) (inside : byte ∈ piece) :
    byte ∈ text := by
  have joins := mem_intercalate member inside
  rwa [List.intercalate_splitOn] at joins

/-- The labels of a rule are clean. -/
theorem clean_splitOn {text : Text} (nulFree : 0 ∉ text) :
    Clean (text.splitOn dot) := by
  intro piece member
  refine ⟨dot_not_mem_splitOn member, ?_⟩
  intro zero
  exact nulFree (mem_of_mem_splitOn member zero)

theorem caseless_splitOn {text : Text} (lower : Lower text) :
    caseless (text.splitOn dot) = text.splitOn dot := by
  have same :
      caseless (text.splitOn dot) = (text.splitOn dot).map id := by
    apply List.map_congr_left
    intro piece member
    apply Lower.map_eq
    intro byte inside
    exact lower byte (mem_of_mem_splitOn member inside)
  rw [same, List.map_id]

section Clean

variable {labels : List Label}

theorem splitOn_joined (clean : Clean labels) (some_label : labels ≠ []) :
    (joined labels).splitOn dot = caseless labels := by
  apply List.splitOn_intercalate
  · intro label member
    exact ((clean_caseless labels).mpr clean label member).1
  · simpa [caseless] using some_label

/-- The text of a clean name names these labels alone. -/
theorem joined_eq_iff
    (clean : Clean labels) {text : Text} (filled : text ≠ [])
    (lower : Lower text) :
    joined labels = text ↔
      caseless labels = caseless (text.splitOn dot) := by
  rw [caseless_splitOn lower]
  constructor
  · rintro rfl
    rw [splitOn_joined clean]
    rintro rfl
    exact filled rfl
  · intro same
    rw [joined, same, List.intercalate_splitOn]

/-- So does a suffix of it. -/
theorem joined_suffix_iff
    (clean : Clean labels) {text : Text} (lower : Lower text) :
    (∃ front, joined labels = front ++ dot :: text) ↔
      Below labels (text.splitOn dot) := by
  rw [Below, caseless_splitOn lower]
  constructor
  · rintro ⟨front, same⟩
    refine ⟨front.splitOn dot, List.splitOn_ne_nil _ _, ?_⟩
    have some_label : labels ≠ [] := by
      rintro rfl
      exact absurd same.symm (by simp [joined, caseless])
    rw [← splitOn_joined clean some_label, same,
      List.splitOn_append_cons_self]
  · rintro ⟨front, some_front, same⟩
    refine ⟨[dot].intercalate front, ?_⟩
    rw [joined, same,
      intercalate_append some_front (List.splitOn_ne_nil _ _),
      List.intercalate_splitOn]

/-- The text of a name ends with its last label. -/
theorem joined_concat (front : List Label) (last : Label) :
    ∃ before, joined (front ++ [last]) = before ++ last.map lowerAscii := by
  by_cases empty : front = []
  · refine ⟨[], ?_⟩
    rw [empty]
    exact List.intercalate_singleton
  · refine ⟨joined front ++ [dot], ?_⟩
    have some_front : caseless front ≠ [] := by
      simpa [caseless] using empty
    have split :
        caseless (front ++ [last]) =
          caseless front ++ [last.map lowerAscii] := by
      simp [caseless]
    rw [joined, split, intercalate_append some_front (List.cons_ne_nil _ _),
      List.intercalate_singleton, List.append_assoc]
    rfl

/-- A clean name is compared as it is. -/
theorem normalizedName_of_clean
    (clean : Clean labels) (filled : ∀ label ∈ labels, label ≠ []) :
    normalizedName labels = joined labels := by
  rcases List.eq_nil_or_concat labels with rfl | ⟨front, last, rfl⟩
  · decide
  · rw [List.concat_eq_append] at clean filled ⊢
    have some_label : front ++ [last] ≠ [] := by simp
    have cleans := (clean_caseless _).mpr clean
    have nulFree : 0 ∉ joined (front ++ [last]) := by
      intro zero
      rcases mem_of_mem_intercalate zero with same | ⟨piece, among, inside⟩
      · revert same
        decide
      · exact (cleans piece among).2 inside
    have member : last ∈ front ++ [last] :=
      List.mem_append_right _ List.mem_cons_self
    have lowered : last.map lowerAscii ≠ [] := by
      simpa using filled last member
    rcases joined_concat front last with ⟨before, same⟩
    rw [normalizedName, spell_eq some_label filled, cstr_eq_self nulFree,
      stripDots, List.rdropWhile_eq_self_iff]
    intro left
    have ends :
        (joined (front ++ [last])).getLast left =
          (last.map lowerAscii).getLast lowered := by
      simp only [same]
      exact List.getLast_append_of_ne_nil _ lowered
    rw [ends, beq_iff_eq]
    intro isDot
    have inside := List.getLast_mem lowered
    rw [isDot] at inside
    exact ((cleanLabel_map last).mpr (clean last member)).1 inside

/-- For a clean name the texts are compared as the labels are. -/
theorem ruleMatches_iff
    (clean : Clean labels) {rule : Text} (stored : Stored rule) :
    ruleMatches (joined labels) rule = true ↔
      (ruleOf rule).Covers labels := by
  cases rule with
  | nil => exact absurd rfl stored.filled
  | cons first rest =>
      have lowerRest : Lower rest :=
        stored.lower.of_subset (List.subset_cons_self _ _)
      simp only [ruleMatches, ruleOf]
      split
      · next equals =>
          have filled : rest ≠ [] := by
            rintro rfl
            exact stored.named (by rw [equals])
          rw [beq_iff_eq]
          exact joined_eq_iff clean filled lowerRest
      · split
        · next below =>
            have lowerTail : Lower rest.tail :=
              lowerRest.of_subset (List.tail_suffix _).subset
            rw [endsBehindDot_iff]
            exact joined_suffix_iff clean lowerTail
        · rw [Bool.or_eq_true, beq_iff_eq, endsBehindDot_iff]
          exact or_congr
            (joined_eq_iff clean (List.cons_ne_nil _ _) stored.lower)
            (joined_suffix_iff clean stored.lower)

end Clean

/-! ## Names which are confused with no other -/

/--
No label contains a dot or a NUL, or nothing is left of the text while the
last label contains one of them.
-/
def Unconfusable (labels : List Label) : Prop :=
  Clean labels ∨
    normalizedName labels = [] ∧
      ∃ label, labels.getLast? = some label ∧ ¬ CleanLabel label

/-- No rule matches the empty text. -/
theorem ruleMatches_nil {rule : Text} (stored : Stored rule) :
    ruleMatches [] rule = false := by
  have short (suffix : Text) : endsBehindDot [] suffix = false := by
    rw [endsBehindDot, List.length_nil, if_pos (Nat.zero_le _)]
  cases rule with
  | nil => exact absurd rfl stored.filled
  | cons first rest =>
      simp only [ruleMatches, short]
      split
      · next equals =>
          cases rest with
          | nil => exact absurd (by rw [equals]) stored.named
          | cons => rfl
      · split
        · rfl
        · rfl

/-- A name which is covered ends with the labels of the rule. -/
theorem covers_suffix
    {rule : Text} (stored : Stored rule) {labels : List Label}
    (covers : (ruleOf rule).Covers labels) :
    ∃ (front : List Label) (text : Text), 0 ∉ text ∧
      caseless labels = front ++ caseless (text.splitOn dot) := by
  have within (text : Text)
      (either :
        caseless labels = caseless (text.splitOn dot) ∨
          Below labels (text.splitOn dot)) :
      ∃ front, caseless labels = front ++ caseless (text.splitOn dot) := by
    rcases either with same | ⟨front, _, same⟩
    · exact ⟨[], same⟩
    · exact ⟨front, same⟩
  cases rule with
  | nil => exact absurd rfl stored.filled
  | cons first rest =>
      have nulFreeRest : 0 ∉ rest := by
        intro zero
        exact stored.nulFree (List.mem_cons_of_mem _ zero)
      simp only [ruleOf] at covers
      split at covers
      · rcases within rest (.inl covers) with ⟨front, same⟩
        exact ⟨front, rest, nulFreeRest, same⟩
      · split at covers
        · rcases within rest.tail (.inr covers) with ⟨front, same⟩
          refine ⟨front, rest.tail, ?_, same⟩
          intro zero
          exact nulFreeRest (List.mem_of_mem_tail zero)
        · rcases within (first :: rest) covers with ⟨front, same⟩
          exact ⟨front, first :: rest, stored.nulFree, same⟩

/-- The last label of a name which is covered is clean. -/
theorem cleanLabel_of_covers
    {rule : Text} (stored : Stored rule) {labels : List Label}
    (covers : (ruleOf rule).Covers labels) {label : Label}
    (last : labels.getLast? = some label) :
    CleanLabel label := by
  rcases covers_suffix stored covers with ⟨front, text, nulFree, same⟩
  have cleans := (clean_caseless _).mpr (clean_splitOn nulFree)
  have some_label : caseless (text.splitOn dot) ≠ [] := by
    simp [caseless]
  have ends :
      (caseless (text.splitOn dot)).getLast? =
        some (label.map lowerAscii) := by
    rw [← List.getLast?_append_of_ne_nil front some_label, ← same, caseless,
      List.getLast?_map, last]
    rfl
  exact (cleanLabel_map label).mp (cleans _ (List.mem_of_getLast? ends))

/-- For such a name the comparison of texts is that of labels. -/
theorem domainMatches_of_unconfusable
    {conf : RuleConf} (loaded : Loaded conf) {labels : List Label}
    (filled : ∀ label ∈ labels, label ≠ [])
    (short : (spell labels).length ≤ servnameMaxlen)
    (unconfusable : Unconfusable labels) :
    nspconfDomainMatches conf (spell labels) = true ↔
      ∃ rule ∈ conf.directDomains, (ruleOf rule).Covers labels := by
  rw [nspconfDomainMatches_spell conf short, List.any_eq_true]
  rcases unconfusable with clean | ⟨empty, label, last, confused⟩
  · rw [normalizedName_of_clean clean filled]
    apply exists_congr
    intro rule
    apply and_congr_right
    intro member
    exact ruleMatches_iff clean (loaded.stored rule member)
  · rw [empty]
    constructor
    · rintro ⟨rule, member, matched⟩
      rw [ruleMatches_nil (loaded.stored rule member)] at matched
      cases matched
    · rintro ⟨rule, member, covers⟩
      have stored := loaded.stored rule member
      exact absurd (cleanLabel_of_covers stored covers last) confused

/-! ## Names which are confused -/

/-- A configuration without rules. -/
def noRules : RuleConf where
  proxysrv := []
  proxyport := 0
  proxytype := .direct
  dnssrv := []
  dnsport := 0
  dnstype := .off
  proxyuser := []
  proxypass := []
  ipv6 := false
  directCidrs := []
  directCidrCapacity := 0
  directCidrMode := .blacklist
  directDomains := []
  directDomainCapacity := 0

section Agreement

variable {labels : List Label}

/-- The texts are compared as the labels are, for every set of rules. -/
def Agrees (labels : List Label) : Prop :=
  ∀ conf, Loaded conf →
    (nspconfDomainMatches conf (spell labels) = true ↔
      ∃ rule ∈ conf.directDomains, (ruleOf rule).Covers labels)

/-- The agreement on a single rule. -/
theorem Agrees.rule
    (agrees : Agrees labels)
    (short : (spell labels).length ≤ servnameMaxlen)
    {first : UInt8} {rest : Text} (visible : isAsciiSpace first = false)
    (stored : Stored (first :: rest)) :
    ruleMatches (normalizedName labels) (first :: rest) = true ↔
      (ruleOf (first :: rest)).Covers labels := by
  have kept := directDomains_add noRules rfl visible stored
  have same := agrees _ (.add (.start noRules rfl) (first :: rest ++ [dot]))
  rw [nspconfDomainMatches_spell _ short, kept, List.any_cons, List.any_nil,
    Bool.or_false] at same
  rw [same]
  constructor
  · rintro ⟨rule, member, covers⟩
    rw [← List.mem_singleton.mp member]
    exact covers
  · intro covers
    exact ⟨first :: rest, List.mem_cons_self, covers⟩

/-- A text which is left is the text of clean labels. -/
theorem Agrees.clean
    (agrees : Agrees labels)
    (short : (spell labels).length ≤ servnameMaxlen)
    (left : normalizedName labels ≠ []) :
    Clean labels := by
  have lower : Lower (normalizedName labels) :=
    ((lower_spell labels).of_subset (cstr_subset _)).of_subset
      (stripDots_subset _)
  have nulFree : 0 ∉ normalizedName labels := by
    intro zero
    have passed := List.mem_takeWhile_imp (stripDots_subset _ zero)
    revert passed
    decide
  have stored : Stored (equalsSign :: normalizedName labels) := by
    refine ⟨List.cons_ne_nil _ _, ?_, ?_, ?_, ?_⟩
    · intro same
      exact left (List.cons.inj same).2
    · intro byte member
      rcases List.mem_cons.mp member with rfl | inside
      · rfl
      · exact lower byte inside
    · intro member
      rcases List.mem_cons.mp member with zero | inside
      · revert zero
        decide
      · exact nulFree inside
    · intro some_byte
      rw [List.getLast_cons left]
      exact stripDots_getLast left
  have matched :
      ruleMatches (normalizedName labels)
        (equalsSign :: normalizedName labels) = true := by
    simp [ruleMatches]
  have covers := (agrees.rule short (by decide) stored).mp matched
  have same :
      caseless labels =
        caseless ((normalizedName labels).splitOn dot) := covers
  rw [← clean_caseless, same, clean_caseless]
  exact clean_splitOn nulFree

/-- When no text is left, a clean label below other ones is missed. -/
theorem Agrees.last
    (agrees : Agrees labels)
    (filled : ∀ label ∈ labels, label ≠ [])
    (short : (spell labels).length ≤ servnameMaxlen)
    (empty : normalizedName labels = []) (confused : ¬ Clean labels) :
    ∃ label, labels.getLast? = some label ∧ ¬ CleanLabel label := by
  rcases List.eq_nil_or_concat labels with empty | ⟨front, last, concat⟩
  · refine absurd ?_ confused
    rw [empty]
    intro label impossible
    cases impossible
  · rw [List.concat_eq_append] at concat
    refine ⟨last, by rw [concat, List.getLast?_concat], ?_⟩
    intro clean
    have member : last ∈ labels := by
      rw [concat]
      exact List.mem_append_right _ List.mem_cons_self
    have cleanLower := (cleanLabel_map last).mpr clean
    have some_byte : last.map lowerAscii ≠ [] := by
      simpa using filled last member
    have stored : Stored (asterisk :: dot :: last.map lowerAscii) := by
      refine ⟨List.cons_ne_nil _ _, ?_, ?_, ?_, ?_⟩
      · intro same
        cases (List.cons.inj same).2
      · intro byte among
        rcases List.mem_cons.mp among with rfl | inside
        · rfl
        · rcases List.mem_cons.mp inside with rfl | deeper
          · rfl
          · exact lower_map last byte deeper
      · intro among
        rcases List.mem_cons.mp among with zero | inside
        · revert zero
          decide
        · rcases List.mem_cons.mp inside with zero | deeper
          · revert zero
            decide
          · exact cleanLower.2 deeper
      · intro left
        rw [List.getLast_cons (List.cons_ne_nil _ _),
          List.getLast_cons some_byte]
        intro isDot
        have inside := List.getLast_mem some_byte
        rw [isDot] at inside
        exact cleanLower.1 inside
    have some_front : front ≠ [] := by
      rintro rfl
      apply confused
      intro label among
      rw [concat, List.nil_append] at among
      rw [List.mem_singleton.mp among]
      exact clean
    have covers :
        (ruleOf (asterisk :: dot :: last.map lowerAscii)).Covers
          labels := by
      have single :
          caseless ((last.map lowerAscii).splitOn dot) =
            [last.map lowerAscii] := by
        rw [caseless_splitOn (lower_map last),
          List.splitOn_eq_singleton cleanLower.1]
      refine ⟨caseless front, by simpa [caseless] using some_front, ?_⟩
      rw [concat]
      simp only [List.tail_cons]
      rw [single]
      simp [caseless]
    have matched := (agrees.rule short (by decide) stored).mpr covers
    rw [empty, ruleMatches_nil stored] at matched
    cases matched

/-- The names for which the comparisons agree. -/
theorem agrees_iff
    (filled : ∀ label ∈ labels, label ≠ [])
    (short : (spell labels).length ≤ servnameMaxlen) :
    Agrees labels ↔ Unconfusable labels := by
  constructor
  · intro agrees
    by_cases clean : Clean labels
    · exact .inl clean
    · by_cases empty : normalizedName labels = []
      · exact .inr ⟨empty, agrees.last filled short empty clean⟩
      · exact absurd (agrees.clean short empty) clean
  · intro unconfusable conf loaded
    exact domainMatches_of_unconfusable loaded filled short unconfusable

end Agreement

/--
For every decoded name, the text matches the rules which cover its labels,
for all sets of rules, exactly when the name is confused with no other.
-/
theorem dns_domain_match_iff
    {msg : List UInt8} {offset next steps behind : Nat} {text : Text}
    {labels : List Label}
    (decoded : dnsReadName msg offset nameSize = .ok (some (text, next)))
    (wire : Wire msg steps offset labels behind) :
    (∀ conf, Loaded conf →
      (nspconfDomainMatches conf text = true ↔
        ∃ rule ∈ conf.directDomains, (ruleOf rule).Covers labels)) ↔
      Unconfusable labels := by
  rcases readNameLoop_sound msg nameSize 128 none offset [] with
    ⟨found, read, names⟩
  rw [dnsReadName, read] at decoded
  cases decoded
  rcases names text next rfl with
    ⟨_, _, _, _, found, spelled, fits⟩
  rcases wire.unique found with ⟨_, same, _⟩
  rw [← same] at spelled
  rw [spelled] at fits ⊢
  exact agrees_iff wire.labels_ne_nil (Nat.le_of_lt_succ fits)

/-- A name of one label, which begins at the start of the message. -/
theorem wire_single
    (len : UInt8) (label : Label) (size : label.length = len.toNat)
    (positive : 0 < len.toNat) (small : len.toNat ≤ 63) :
    Wire (len :: label ++ [0]) 2 0 [label] (len.toNat + 2) := by
  have ends : (len :: label ++ [0])[0 + 1 + len.toNat]? = some 0 := by
    rw [← size, Nat.zero_add, Nat.add_comm, List.cons_append,
      List.getElem?_cons_succ, List.getElem?_append_right (Nat.le_refl _),
      Nat.sub_self]
    rfl
  have inside : 0 + 1 + len.toNat ≤ (len :: label ++ [0]).length :=
    Nat.le_of_lt (List.getElem?_eq_some_iff.mp ends).1
  have wire := Wire.label rfl positive small inside (.root ends)
  have text :
      ((len :: label ++ [0]).drop (0 + 1)).take len.toNat = label := by
    rw [← size]
    exact List.take_left
  have next : 0 + 1 + len.toNat + 1 = len.toNat + 2 := by omega
  rw [text, next] at wire
  exact wire

/-- `Example.com`, and behind it `www` with a pointer to its start. -/
def sampleNames : List UInt8 :=
  [7, 0x45, 0x78, 0x61, 0x6d, 0x70, 0x6c, 0x65, 3, 0x63, 0x6f, 0x6d, 0,
    3, 0x77, 0x77, 0x77, 0xc0, 0]

/-- The labels of `www.Example.com`. -/
def sampleLabels : List Label :=
  [[0x77, 0x77, 0x77], [0x45, 0x78, 0x61, 0x6d, 0x70, 0x6c, 0x65],
    [0x63, 0x6f, 0x6d]]

theorem wire_sampleNames : Wire sampleNames 5 13 sampleLabels 19 := by
  have com : Wire sampleNames 2 8 [[0x63, 0x6f, 0x6d]] 13 :=
    .label (show sampleNames[8]? = some 3 from rfl) (by decide)
      (by decide) (by decide) (.root rfl)
  have example_ :
      Wire sampleNames 3 0
        [[0x45, 0x78, 0x61, 0x6d, 0x70, 0x6c, 0x65],
          [0x63, 0x6f, 0x6d]] 13 :=
    .label (show sampleNames[0]? = some 7 from rfl) (by decide)
      (by decide) (by decide) com
  have back :
      Wire sampleNames 4 17
        [[0x45, 0x78, 0x61, 0x6d, 0x70, 0x6c, 0x65],
          [0x63, 0x6f, 0x6d]] 19 :=
    .pointer (show sampleNames[17]? = some 0xc0 from rfl) (by decide)
      (show sampleNames[18]? = some 0 from rfl) example_
  exact
    .label (show sampleNames[13]? = some 3 from rfl) (by decide)
      (by decide) (by decide) back

/-- The name `www.example.com` is compared by its labels. -/
theorem dns_domain_match_plain :
    dnsReadName sampleNames 13 nameSize =
        .ok (some (ascii "www.example.com", 19)) ∧
      ∀ conf, Loaded conf →
        (nspconfDomainMatches conf (ascii "www.example.com") = true ↔
          ∃ rule ∈ conf.directDomains,
            (ruleOf rule).Covers sampleLabels) := by
  have decoded :
      dnsReadName sampleNames 13 nameSize =
        .ok (some (ascii "www.example.com", 19)) := by
    decide +kernel
  refine
    ⟨decoded, (dns_domain_match_iff decoded wire_sampleNames).mpr (.inl ?_)⟩
  intro label member
  rcases List.mem_cons.mp member with rfl | later
  · exact ⟨by decide, by decide⟩
  · rcases List.mem_cons.mp later with rfl | last
    · exact ⟨by decide, by decide⟩
    · rw [List.mem_singleton.mp last]
      exact ⟨by decide, by decide⟩

/-- The single label `a.com` is taken for the domain `a.com`. -/
theorem dns_domain_confused :
    ¬ ∀ (msg : List UInt8) (offset next steps behind : Nat) (text : Text)
        (labels : List Label),
      dnsReadName msg offset nameSize = .ok (some (text, next)) →
        Wire msg steps offset labels behind →
          ∀ conf, Loaded conf →
            (nspconfDomainMatches conf text = true ↔
              ∃ rule ∈ conf.directDomains,
                (ruleOf rule).Covers labels) := by
  intro agrees
  have decoded :
      dnsReadName [5, 0x61, 0x2e, 0x63, 0x6f, 0x6d, 0] 0 nameSize =
        .ok (some (ascii "a.com", 7)) := by
    decide +kernel
  have wire :
      Wire [5, 0x61, 0x2e, 0x63, 0x6f, 0x6d, 0] 2 0
        [[0x61, 0x2e, 0x63, 0x6f, 0x6d]] 7 :=
    wire_single 5 [0x61, 0x2e, 0x63, 0x6f, 0x6d] rfl (by decide)
      (by decide)
  have same :=
    agrees _ _ _ _ _ _ _ decoded wire
      (nspconfAddDirectDomain noRules (ascii "a.com"))
      (.add (.start noRules rfl) (ascii "a.com"))
  have matched :
      nspconfDomainMatches
        (nspconfAddDirectDomain noRules (ascii "a.com"))
        (ascii "a.com") = true := by
    decide +kernel
  rcases same.mp matched with ⟨rule, member, covers⟩
  have kept :
      (nspconfAddDirectDomain noRules (ascii "a.com")).directDomains =
        [ascii "a.com"] := by
    decide +kernel
  rw [kept] at member
  rw [List.mem_singleton.mp member] at covers
  have labels :
      ruleOf (ascii "a.com") = .within [[0x61], [0x63, 0x6f, 0x6d]] := by
    decide +kernel
  rw [labels] at covers
  rcases covers with equal | ⟨front, some_front, suffix⟩
  · revert equal
    decide
  · have length := congrArg List.length suffix
    simp [caseless] at length

end Nsproxy.Dns.Rules
