import Mathlib.Tactic.Common
import Nsproxy.Core.UdpFrames
import Nsproxy.Dns.Rules

/-!
# Addresses in DNS responses

`dns_response_add_direct_cidrs` of `core.c`, which walks over the questions
and the answers of a datagram.  A read outside of the datagram is a fault.

The format is stated apart from the walk: `Questions` are the questions from
an offset on, and `LongestRun` are the answers before the first one which is
malformed.  The function never faults, and it appends to the table exactly the
addresses of these answers.
-/

namespace Nsproxy.Dns.Responses

open Nsproxy.Conf
open Nsproxy.Core.UdpFlows (CoreCtx)
open Nsproxy.Core.UdpFrames
open Nsproxy.Dns.Names
open Nsproxy.Dns.Rules

/-! ## The walk -/

/-- One byte of the message. -/
def readByte (msg : List UInt8) (pos : Nat) : Except Outside UInt8 :=
  match msg[pos]? with
  | none => .error (.read pos)
  | some byte => .ok byte

/-- `dns_get_u16`. -/
def dnsGetU16 (msg : List UInt8) (pos : Nat) : Except Outside Nat := do
  let high ← readByte msg pos
  let low ← readByte msg (pos + 1)
  return high.toNat * 256 + low.toNat

/-- `dns_get_u32`. -/
def dnsGetU32 (msg : List UInt8) (pos : Nat) : Except Outside Nat := do
  let high ← dnsGetU16 msg pos
  let low ← dnsGetU16 msg (pos + 2)
  return high * 65536 + low

/-- `memcpy` out of the message. -/
def copyBytes (msg : List UInt8) :
    Nat → Nat → Except Outside (List UInt8)
  | 0, _ => .ok []
  | count + 1, pos => do
      let byte ← readByte msg pos
      let rest ← copyBytes msg count (pos + 1)
      return byte :: rest

/-- `uint8_t addr[16]`, of which the first bytes were set. -/
def padded (bytes : List UInt8) : Vector UInt8 16 :=
  Vector.ofFn fun index => bytes.getD index 0

/-- `nspconf_add_direct_cidr_raw`, beside the domain rules. -/
def addDirectCidr (conf : RuleConf) (block : CidrBlock) : RuleConf :=
  { conf with toNspconf := nspconfAddDirectCidrRaw conf.toNspconf block }

/--
The loop over the questions: whether one of them matched, and the offset
behind them; nothing when one of them is malformed.
-/
def questionsLoop (conf : RuleConf) (msg : List UInt8) :
    Nat → Nat → Bool → Except Outside (Option (Bool × Nat))
  | 0, offset, matched => .ok (some (matched, offset))
  | count + 1, offset, matched => do
      match ← dnsReadName msg offset nameSize with
      | none => return none
      | some (qname, offset) =>
          if msg.length < offset + 4 then
            return none
          else
            let _ ← dnsGetU16 msg offset
            questionsLoop conf msg count (offset + 4)
              (nspconfDomainMatches conf qname || matched)

/-- What is done with one answer, whose data are at `offset`. -/
def addAnswer
    (msg : List UInt8) (type cls rdlen offset : Nat) (conf : RuleConf) :
    Except Outside RuleConf :=
  if cls = 1 ∧ type = 1 ∧ rdlen = 4 then do
    let addr ← copyBytes msg 4 offset
    return addDirectCidr conf ⟨.inet, 32, padded addr⟩
  else if cls = 1 ∧ type = 28 ∧ rdlen = 16 then do
    let addr ← copyBytes msg 16 offset
    return addDirectCidr conf ⟨.inet6, 128, padded addr⟩
  else
    return conf

/-- The loop over the answers. -/
def answersLoop (msg : List UInt8) :
    Nat → Nat → RuleConf → Except Outside RuleConf
  | 0, _, conf => .ok conf
  | count + 1, offset, conf => do
      match ← dnsSkipName msg offset with
      | none => return conf
      | some offset =>
          if msg.length < offset + 10 then
            return conf
          else
            let type ← dnsGetU16 msg offset
            let cls ← dnsGetU16 msg (offset + 2)
            let _ ← dnsGetU32 msg (offset + 4)
            let rdlen ← dnsGetU16 msg (offset + 8)
            if msg.length < offset + 10 + rdlen then
              return conf
            else
              let next ← addAnswer msg type cls rdlen (offset + 10) conf
              answersLoop msg count (offset + 10 + rdlen) next

/-- `dns_response_add_direct_cidrs`. -/
def dnsResponseAddDirectCidrs (conf : RuleConf) (msg : List UInt8) :
    Except Outside RuleConf :=
  if conf.directDomains = [] ∨ msg.length < 12 then
    return conf
  else do
    let flags ← dnsGetU16 msg 2
    if flags &&& 0x8000 = 0 then
      return conf
    else
      let qdcount ← dnsGetU16 msg 4
      let ancount ← dnsGetU16 msg 6
      match ← questionsLoop conf msg qdcount 12 false with
      | none => return conf
      | some (false, _) => return conf
      | some (true, offset) => answersLoop msg ancount offset conf

/-! ## The format -/

/-- The number in two bytes of the message. -/
def word (msg : List UInt8) (pos : Nat) : Nat :=
  (msg.getD pos 0).toNat * 256 + (msg.getD (pos + 1) 0).toNat

/-- The names of that many questions, and the offset behind the last one. -/
inductive Questions (msg : List UInt8) :
    Nat → Nat → List (List Label) → Nat → Prop where
  | none {pos : Nat} : Questions msg 0 pos [] pos
  | question {count pos behind next : Nat} {labels : List Label}
      {names : List (List Label)}
      (name : NameAt msg pos labels behind)
      (inside : behind + 4 ≤ msg.length)
      (rest : Questions msg count (behind + 4) names next) :
      Questions msg (count + 1) pos (labels :: names) next

/-- The part of a resource record which matters here. -/
structure Record where
  type : Nat
  cls : Nat
  rdata : List UInt8
deriving DecidableEq, Repr

/-- The well-formed record at an offset, and the offset behind it. -/
inductive RecordAt (msg : List UInt8) : Nat → Record → Nat → Prop where
  | record {pos behind : Nat} {labels : List Label}
      (name : NameAt msg pos labels behind)
      (fields : behind + 10 ≤ msg.length)
      (inside : behind + 10 + word msg (behind + 8) ≤ msg.length) :
      RecordAt msg pos
        { type := word msg behind
          cls := word msg (behind + 2)
          rdata :=
            (msg.drop (behind + 10)).take (word msg (behind + 8)) }
        (behind + 10 + word msg (behind + 8))

/-- Well-formed records, one behind the other. -/
inductive Run (msg : List UInt8) : Nat → List Record → Prop where
  | nil {pos : Nat} : Run msg pos []
  | cons {pos next : Nat} {record : Record} {records : List Record}
      (first : RecordAt msg pos record next)
      (rest : Run msg next records) :
      Run msg pos (record :: records)

/-- The longest run of at most that many records. -/
structure LongestRun
    (msg : List UInt8) (count pos : Nat) (records : List Record) :
    Prop where
  run : Run msg pos records
  counted : records.length ≤ count
  longest :
    ∀ others, Run msg pos others → others.length ≤ count →
      others <+: records

/-- The block for the address in a record. -/
def blockOf (record : Record) : Option CidrBlock :=
  if record.cls = 1 ∧ record.type = 1 ∧ record.rdata.length = 4 then
    some ⟨.inet, 32, padded record.rdata⟩
  else if
      record.cls = 1 ∧ record.type = 28 ∧ record.rdata.length = 16 then
    some ⟨.inet6, 128, padded record.rdata⟩
  else
    none

/-- The blocks which are not in the table yet, each of them once. -/
def newBlocks (table blocks : List CidrBlock) : List CidrBlock :=
  (blocks.filter fun block => decide (block ∉ table)).eraseDups

/--
A response to a question which a domain rule matches; its answers begin at
`next`.
-/
structure Responds
    (conf : RuleConf) (msg : List UInt8) (next : Nat) : Prop where
  rules : conf.directDomains ≠ []
  header : 12 ≤ msg.length
  response : word msg 2 &&& 0x8000 ≠ 0
  questions :
    ∃ names, Questions msg (word msg 4) 12 names next ∧
      ∃ name ∈ names, nspconfDomainMatches conf (spell name) = true

/-- The configurations differ in the table of blocks alone. -/
def OnlyTable (before after : RuleConf) : Prop :=
  ∃ cidrs capacity,
    after =
      { before with
        directCidrs := cidrs
        directCidrCapacity := capacity }

/-! ## The reads are inside of the message -/

section Reads

variable {msg : List UInt8} {pos : Nat}

theorem readByte_eq (inside : pos < msg.length) :
    readByte msg pos = .ok (msg.getD pos 0) := by
  simp only [readByte, List.getElem?_eq_getElem inside, List.getD,
    Option.getD_some]

theorem dnsGetU16_eq (inside : pos + 2 ≤ msg.length) :
    dnsGetU16 msg pos = .ok (word msg pos) := by
  have first : pos < msg.length := by omega
  have second : pos + 1 < msg.length := by omega
  rw [dnsGetU16, readByte_eq first, readByte_eq second]
  rfl

theorem dnsGetU32_eq (inside : pos + 4 ≤ msg.length) :
    dnsGetU32 msg pos =
      .ok (word msg pos * 65536 + word msg (pos + 2)) := by
  have first : pos + 2 ≤ msg.length := by omega
  have second : pos + 2 + 2 ≤ msg.length := by omega
  rw [dnsGetU32, dnsGetU16_eq first, dnsGetU16_eq second]
  rfl

theorem copyBytes_eq {count : Nat} (inside : pos + count ≤ msg.length) :
    copyBytes msg count pos = .ok ((msg.drop pos).take count) := by
  induction count generalizing pos with
  | zero => rfl
  | succ count induction =>
      have here : pos < msg.length := by omega
      have rest : pos + 1 + count ≤ msg.length := by omega
      rw [copyBytes, readByte_eq here, induction rest,
        List.drop_eq_getElem_cons here, List.take_succ_cons, List.getD,
        List.getElem?_eq_getElem here]
      rfl

end Reads

/-! ## The questions -/

section Walk

variable {msg : List UInt8} {count pos next : Nat}

theorem questionsLoop_eq
    (conf : RuleConf) {names : List (List Label)} (matched : Bool)
    (questions : Questions msg count pos names next) :
    questionsLoop conf msg count pos matched =
      .ok
        (some
          (names.any
              (fun name => nspconfDomainMatches conf (spell name)) ||
            matched, next)) := by
  induction questions generalizing matched with
  | none => rfl
  | @question count pos behind next labels names name inside rest
      induction =>
      have type : behind + 2 ≤ msg.length := by omega
      rw [questionsLoop, dnsReadName_name name]
      simp only [bind, Except.bind, if_neg (Nat.not_lt.mpr inside),
        dnsGetU16_eq type, induction, List.any_cons]
      rw [← Bool.or_assoc, Bool.or_comm (names.any _)]

/-- A malformed question ends the walk. -/
theorem questionsLoop_none
    (conf : RuleConf) (matched : Bool)
    (malformed : ∀ names next, ¬ Questions msg count pos names next) :
    questionsLoop conf msg count pos matched = .ok none := by
  induction count generalizing pos matched with
  | zero => exact absurd .none (malformed [] pos)
  | succ count induction =>
      rw [questionsLoop]
      by_cases name : ∃ labels behind, NameAt msg pos labels behind
      · rcases name with ⟨labels, behind, name⟩
        rw [dnsReadName_name name]
        by_cases inside : behind + 4 ≤ msg.length
        · have type : behind + 2 ≤ msg.length := by omega
          simp only [bind, Except.bind, if_neg (Nat.not_lt.mpr inside),
            dnsGetU16_eq type]
          apply induction
          intro names next rest
          exact malformed _ _ (.question name inside rest)
        · simp only [bind, Except.bind, if_pos (Nat.lt_of_not_le inside)]
          rfl
      · rw [dnsReadName_none]
        · rfl
        · intro labels behind here
          exact name ⟨labels, behind, here⟩

theorem Questions.unique
    {names names' : List (List Label)} {next' : Nat}
    (first : Questions msg count pos names next)
    (second : Questions msg count pos names' next') :
    names = names' ∧ next = next' := by
  induction first generalizing names' next' with
  | none =>
      cases second with
      | none => exact ⟨rfl, rfl⟩
  | question name inside rest induction =>
      cases second with
      | question other _ others =>
          rcases name.unique other with ⟨rfl, rfl⟩
          rcases induction others with ⟨rfl, rfl⟩
          exact ⟨rfl, rfl⟩

/-! ## The answers -/

theorem RecordAt.unique
    {record record' : Record} {next' : Nat}
    (first : RecordAt msg pos record next)
    (second : RecordAt msg pos record' next') :
    record = record' ∧ next = next' := by
  cases first with
  | record name =>
      cases second with
      | record other =>
          rcases name.unique other with ⟨rfl, rfl⟩
          exact ⟨rfl, rfl⟩

theorem longestRun_zero (msg : List UInt8) (pos : Nat) :
    LongestRun msg 0 pos [] where
  run := .nil
  counted := Nat.le_refl 0
  longest := by
    intro others run few
    rw [List.eq_nil_of_length_eq_zero (Nat.le_zero.mp few)]

theorem longestRun_malformed
    (malformed : ∀ record next, ¬ RecordAt msg pos record next) :
    LongestRun msg count pos [] where
  run := .nil
  counted := Nat.zero_le count
  longest := by
    intro others run few
    cases run with
    | nil => exact List.nil_prefix
    | cons first => exact absurd first (malformed _ _)

theorem LongestRun.cons
    {record : Record} {records : List Record}
    (rest : LongestRun msg count next records)
    (first : RecordAt msg pos record next) :
    LongestRun msg (count + 1) pos (record :: records) where
  run := .cons first rest.run
  counted := Nat.succ_le_succ rest.counted
  longest := by
    intro others run few
    cases run with
    | nil => exact List.nil_prefix
    | cons other run =>
        rcases first.unique other with ⟨rfl, rfl⟩
        rw [List.prefix_cons_inj]
        exact rest.longest _ run (Nat.le_of_succ_le_succ few)

/-- An answer adds its block, if it has one. -/
theorem addAnswer_eq
    (type cls : Nat) {rdlen : Nat} (conf : RuleConf)
    (inside : pos + rdlen ≤ msg.length) :
    addAnswer msg type cls rdlen pos conf =
      .ok
        ((blockOf ⟨type, cls, (msg.drop pos).take rdlen⟩).toList.foldl
          addDirectCidr conf) := by
  have size : ((msg.drop pos).take rdlen).length = rdlen := by
    rw [List.length_take, List.length_drop]
    omega
  simp only [addAnswer, blockOf, size]
  split
  · next v4 =>
      rcases v4 with ⟨_, _, rfl⟩
      rw [copyBytes_eq inside]
      rfl
  · split
    · next v6 =>
        rcases v6 with ⟨_, _, rfl⟩
        rw [copyBytes_eq inside]
        rfl
    · rfl

/-- One round of the loop, up to the length of the data. -/
theorem answersLoop_fields
    {behind : Nat} {labels : List Label} (conf : RuleConf)
    (name : NameAt msg pos labels behind)
    (fields : behind + 10 ≤ msg.length) :
    answersLoop msg (count + 1) pos conf =
      if msg.length < behind + 10 + word msg (behind + 8) then
        .ok conf
      else
        addAnswer msg (word msg behind) (word msg (behind + 2))
            (word msg (behind + 8)) (behind + 10) conf >>=
          answersLoop msg count
            (behind + 10 + word msg (behind + 8)) := by
  have type : behind + 2 ≤ msg.length := by omega
  have cls : behind + 2 + 2 ≤ msg.length := by omega
  have ttl : behind + 4 + 4 ≤ msg.length := by omega
  have rdlen : behind + 8 + 2 ≤ msg.length := by omega
  rw [answersLoop, dnsSkipName, dnsReadName_name name]
  simp only [bind, Except.bind, Option.map_some,
    if_neg (Nat.not_lt.mpr fields), dnsGetU16_eq type, dnsGetU16_eq cls,
    dnsGetU32_eq ttl, dnsGetU16_eq rdlen]
  rfl

/-- A well-formed record adds its block. -/
theorem answersLoop_record
    {record : Record} (conf : RuleConf)
    (first : RecordAt msg pos record next) :
    answersLoop msg (count + 1) pos conf =
      answersLoop msg count next
        ((blockOf record).toList.foldl addDirectCidr conf) := by
  cases first with
  | record name fields inside =>
      rw [answersLoop_fields conf name fields,
        if_neg (Nat.not_lt.mpr inside), addAnswer_eq _ _ conf inside]
      rfl

/-- The loop ends at a malformed record. -/
theorem answersLoop_malformed
    (conf : RuleConf)
    (malformed : ∀ record next, ¬ RecordAt msg pos record next) :
    answersLoop msg (count + 1) pos conf = .ok conf := by
  by_cases name : ∃ labels behind, NameAt msg pos labels behind
  · rcases name with ⟨labels, behind, name⟩
    by_cases fields : behind + 10 ≤ msg.length
    · rw [answersLoop_fields conf name fields, if_pos]
      refine Nat.lt_of_not_le ?_
      intro inside
      exact malformed _ _ (.record name fields inside)
    · rw [answersLoop, dnsSkipName, dnsReadName_name name]
      simp only [bind, Except.bind, Option.map_some,
        if_pos (Nat.lt_of_not_le fields)]
      rfl
  · rw [answersLoop, dnsSkipName, dnsReadName_none]
    · rfl
    · intro labels behind here
      exact name ⟨labels, behind, here⟩

/-- The loop adds the blocks of the longest run of answers. -/
theorem answersLoop_longestRun
    (msg : List UInt8) (count pos : Nat) (conf : RuleConf) :
    ∃ records,
      LongestRun msg count pos records ∧
        answersLoop msg count pos conf =
          .ok ((records.filterMap blockOf).foldl addDirectCidr conf) := by
  induction count generalizing pos conf with
  | zero => exact ⟨[], longestRun_zero msg pos, rfl⟩
  | succ count induction =>
      by_cases some_record : ∃ record next, RecordAt msg pos record next
      · rcases some_record with ⟨record, next, first⟩
        rcases induction next
            ((blockOf record).toList.foldl addDirectCidr conf) with
          ⟨records, longest, added⟩
        refine ⟨record :: records, longest.cons first, ?_⟩
        rw [answersLoop_record conf first, added]
        cases block : blockOf record with
        | none => rw [List.filterMap_cons_none block]; rfl
        | some cidr => rw [List.filterMap_cons_some block]; rfl
      · have malformed :
            ∀ record next, ¬ RecordAt msg pos record next := by
          intro record next first
          exact some_record ⟨record, next, first⟩
        exact
          ⟨[], longestRun_malformed malformed,
            answersLoop_malformed conf malformed⟩

end Walk

/-! ## The table -/

theorem addDirectCidr_foldl (conf : RuleConf) (blocks : List CidrBlock) :
    blocks.foldl addDirectCidr conf =
      { conf with
        toNspconf :=
          blocks.foldl nspconfAddDirectCidrRaw conf.toNspconf } := by
  induction blocks generalizing conf with
  | nil => rfl
  | cons block blocks induction =>
      rw [List.foldl_cons, induction]
      rfl

theorem newBlocks_cons
    (table blocks : List CidrBlock) (block : CidrBlock) :
    newBlocks table (block :: blocks) =
      if block ∈ table then newBlocks table blocks
      else block :: newBlocks (table ++ [block]) blocks := by
  rw [newBlocks, List.filter_cons]
  split
  · next present =>
      have absent : block ∉ table := of_decide_eq_true present
      rw [if_neg absent, List.eraseDups_cons, List.filter_filter,
        newBlocks]
      congr 2
      apply List.filter_congr
      intro other _
      rw [Bool.eq_iff_iff]
      simp [and_comm]
  · next present =>
      rw [if_pos (by simpa using present)]
      rfl

/-- The table after some blocks were added to it. -/
theorem directCidrs_foldl (conf : Nspconf) (blocks : List CidrBlock) :
    (blocks.foldl nspconfAddDirectCidrRaw conf).directCidrs =
      conf.directCidrs ++ newBlocks conf.directCidrs blocks := by
  induction blocks generalizing conf with
  | nil => exact (List.append_nil _).symm
  | cons block blocks induction =>
      rw [List.foldl_cons, induction, newBlocks_cons]
      by_cases present : block ∈ conf.directCidrs
      · rw [nspconfAddDirectCidrRaw, if_pos present, if_pos present]
      · rw [nspconfAddDirectCidrRaw, if_neg present, if_neg present,
          List.append_assoc]
        rfl

theorem onlyTable_foldl (conf : RuleConf) (blocks : List CidrBlock) :
    OnlyTable conf (blocks.foldl addDirectCidr conf) := by
  rw [addDirectCidr_foldl]
  rcases sameSettings_foldl blocks conf.toNspconf with
    ⟨cidrs, capacity, same⟩
  exact ⟨cidrs, capacity, by rw [same]⟩

/-! ## What a response does to the table -/

theorem Responds.unique
    {conf : RuleConf} {msg : List UInt8} {next next' : Nat}
    (first : Responds conf msg next) (second : Responds conf msg next') :
    next = next' := by
  rcases first.questions with ⟨_, questions, _⟩
  rcases second.questions with ⟨_, others, _⟩
  exact (questions.unique others).2

/-- A response to a question which matches adds the blocks of its answers. -/
theorem dnsResponseAddDirectCidrs_responds
    {conf : RuleConf} {msg : List UInt8} {next : Nat}
    (responds : Responds conf msg next) :
    dnsResponseAddDirectCidrs conf msg =
      answersLoop msg (word msg 6) next conf := by
  rcases responds.questions with ⟨names, questions, name, member, matches_⟩
  have header := responds.header
  have useful :
      ¬ (conf.directDomains = [] ∨ msg.length < 12) :=
    not_or.mpr ⟨responds.rules, Nat.not_lt.mpr header⟩
  have flags : 2 + 2 ≤ msg.length := by omega
  have qdcount : 4 + 2 ≤ msg.length := by omega
  have ancount : 6 + 2 ≤ msg.length := by omega
  have matched :
      names.any (fun name => nspconfDomainMatches conf (spell name)) =
        true :=
    List.any_eq_true.mpr ⟨name, member, matches_⟩
  simp only [dnsResponseAddDirectCidrs, if_neg useful, bind, Except.bind,
    dnsGetU16_eq flags, if_neg responds.response, dnsGetU16_eq qdcount,
    dnsGetU16_eq ancount, questionsLoop_eq conf false questions, matched,
    Bool.true_or]

/-- Nothing else changes the configuration. -/
theorem dnsResponseAddDirectCidrs_other
    {conf : RuleConf} {msg : List UInt8}
    (other : ∀ next, ¬ Responds conf msg next) :
    dnsResponseAddDirectCidrs conf msg = .ok conf := by
  rw [dnsResponseAddDirectCidrs]
  split
  · rfl
  · next useful =>
      rw [not_or, Nat.not_lt] at useful
      rcases useful with ⟨rules, header⟩
      have flags : 2 + 2 ≤ msg.length := by omega
      have qdcount : 4 + 2 ≤ msg.length := by omega
      have ancount : 6 + 2 ≤ msg.length := by omega
      by_cases response : word msg 2 &&& 0x8000 = 0
      · simp only [bind, Except.bind, dnsGetU16_eq flags,
          if_pos response]
        rfl
      · by_cases parsed :
            ∃ names next, Questions msg (word msg 4) 12 names next
        · rcases parsed with ⟨names, next, questions⟩
          have unmatched :
              names.any
                  (fun name => nspconfDomainMatches conf (spell name)) =
                false := by
            rw [List.any_eq_false]
            intro name member matches_
            exact
              other next
                ⟨rules, header, response, names, questions, name, member,
                  matches_⟩
          simp only [bind, Except.bind, dnsGetU16_eq flags,
            if_neg response, dnsGetU16_eq qdcount, dnsGetU16_eq ancount,
            questionsLoop_eq conf false questions, unmatched,
            Bool.or_self]
          rfl
        · have malformed :
              ∀ names next,
                ¬ Questions msg (word msg 4) 12 names next := by
            intro names next questions
            exact parsed ⟨names, next, questions⟩
          simp only [bind, Except.bind, dnsGetU16_eq flags,
            if_neg response, dnsGetU16_eq qdcount, dnsGetU16_eq ancount,
            questionsLoop_none conf false malformed]
          rfl

/--
Every datagram is read inside of its bounds, and changes the table alone: not
at all when it is no response to a question which a domain rule matches, and
otherwise by the blocks for the addresses in the longest run of its answers.
-/
theorem dns_response_adds_exactly (conf : RuleConf) (msg : List UInt8) :
    ∃ after,
      dnsResponseAddDirectCidrs conf msg = .ok after ∧
        OnlyTable conf after ∧
        ((∀ next, ¬ Responds conf msg next) → after = conf) ∧
        ∀ next, Responds conf msg next →
          ∃ records,
            LongestRun msg (word msg 6) next records ∧
              after.directCidrs =
                conf.directCidrs ++
                  newBlocks conf.directCidrs
                    (records.filterMap blockOf) := by
  by_cases some_response : ∃ next, Responds conf msg next
  · rcases some_response with ⟨next, responds⟩
    rcases answersLoop_longestRun msg (word msg 6) next conf with
      ⟨records, longest, added⟩
    refine ⟨_, ?_, onlyTable_foldl conf (records.filterMap blockOf), ?_, ?_⟩
    · rw [dnsResponseAddDirectCidrs_responds responds, added]
    · intro other
      exact absurd responds (other next)
    · intro next' responds'
      rw [← responds.unique responds']
      refine ⟨records, longest, ?_⟩
      rw [addDirectCidr_foldl]
      exact directCidrs_foldl conf.toNspconf _
  · have other : ∀ next, ¬ Responds conf msg next := by
      intro next responds
      exact some_response ⟨next, responds⟩
    refine
      ⟨conf, dnsResponseAddDirectCidrs_other other, onlyTable_foldl conf [],
        fun _ => rfl, ?_⟩
    intro next responds
    exact absurd responds (other next)

/-- What the loop of `udp_proxy_input` takes a datagram for. -/
theorem dnsResponseAddDirectCidrs_blocks
    (conf : RuleConf) (msg : List UInt8) :
    ∃ blocks,
      dnsResponseAddDirectCidrs conf msg =
          .ok (blocks.foldl addDirectCidr conf) ∧
        ∀ core : CoreCtx, core.conf = conf.toNspconf →
          Core.UdpFlows.dnsResponseAddDirectCidrs blocks core =
            { core with
              conf := (blocks.foldl addDirectCidr conf).toNspconf } := by
  have same (blocks : List CidrBlock) (core : CoreCtx)
      (settings : core.conf = conf.toNspconf) :
      Core.UdpFlows.dnsResponseAddDirectCidrs blocks core =
        { core with
          conf := (blocks.foldl addDirectCidr conf).toNspconf } := by
    rw [addDirectCidr_foldl, Core.UdpFlows.dnsResponseAddDirectCidrs,
      settings]
  by_cases some_response : ∃ next, Responds conf msg next
  · rcases some_response with ⟨next, responds⟩
    rcases answersLoop_longestRun msg (word msg 6) next conf with
      ⟨records, _, added⟩
    refine ⟨records.filterMap blockOf, ?_, same _⟩
    rw [dnsResponseAddDirectCidrs_responds responds, added]
  · refine ⟨[], dnsResponseAddDirectCidrs_other ?_, same _⟩
    intro next responds
    exact some_response ⟨next, responds⟩

end Nsproxy.Dns.Responses
