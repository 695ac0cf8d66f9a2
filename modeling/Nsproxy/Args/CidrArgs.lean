import Mathlib.Tactic.Common
import Nsproxy.Args.Strtol
import Nsproxy.Conf
import Nsproxy.Core.CidrTable
import Nsproxy.Http
import Nsproxy.InetText
import Nsproxy.Lib.CString

/-!
# CIDR blocks in arguments

`add_direct_cidr` of `main.c`: an address, a slash, and the length of the
prefix.  `Denotes` is the notation of a block.

The length goes through a `long` and an `int` before it is compared with its
bounds.  A number which is out of range can come back into it on the way, and
then a block is stored which the text does not denote.  Apart from these
numbers the function accepts exactly the texts which denote a block.
-/

namespace Nsproxy.Args.CidrArgs

open Nsproxy.Args.Strtol
open Nsproxy.Conf
open Nsproxy.Core.CidrTable
open Nsproxy.Http
open Nsproxy.InetText
open Nsproxy.Lib.CString

/-! ## The function -/

def slash : UInt8 := 0x2f
def colon : UInt8 := 0x3a

/-- `inet_pton` to sixteen bytes, which are zero behind an IPv4 address. -/
def inetPton (inet : Inet) (family : Family) (text : Text) :
    Option (Vector UInt8 16) :=
  match family with
  | .inet =>
      (inet.pton4 text).map fun in4 =>
        vectorOf 16 (in4.toList ++ List.replicate 12 0)
  | .inet6 => inet.pton6 text

/-- The line on `stderr` before the process ends. -/
def complaint (reason addr number : Text) : Text :=
  ascii "nsproxy: invalid CIDR " ++ reason ++ ascii ": " ++ addr ++
    [slash] ++ number ++ [0x0a]

/-- The family of an address: IPv6 has colons. -/
def familyOf (addr : Text) : Family :=
  if strchr addr colon = none then .inet else .inet6

/-- `add_direct_cidr`, once the item is split at its slash. -/
def addDirectCidrParts
    (inet : Inet) (conf : Nspconf) (addr number : Text) :
    Except Text Nspconf :=
  let family := familyOf addr
  let parsed := strtol number
  if parsed.2 ≠ [] then
    .error (complaint (ascii "prefix length") addr number)
  else
    let prefixlen := toInt32 parsed.1
    if prefixlen < 0 ∨ prefixlen > maxprefix family then
      .error (complaint (ascii "prefix length") addr number)
    else
      match inetPton inet family addr with
      | none => .error (complaint (ascii "address") addr number)
      | some bytes =>
          .ok
            (nspconfAddDirectCidrRaw conf
              ⟨family, UInt8.ofNat prefixlen.toNat, bytes⟩)

/-- `add_direct_cidr`; an error ends the process. -/
def addDirectCidr (inet : Inet) (conf : Nspconf) (item : Text) :
    Except Text Nspconf :=
  match strchr item slash with
  | none =>
      .error
        (ascii "nsproxy: invalid CIDR block: " ++ item ++ [0x0a])
  | some offset =>
      let addr := item.take offset
      let number := item.drop (offset + 1)
      if offset = 0 ∨ number = [] then
        .error
          (ascii "nsproxy: invalid CIDR block: " ++ item ++ [0x0a])
      else if strchr number slash ≠ none then
        .error (complaint (ascii "block") addr number)
      else
        addDirectCidrParts inet conf addr number

/-! ## The notation -/

/--
The item is an address, one slash, and a number of whatever size behind it.
-/
structure Parts
    (inet : Inet) (item : Text) (family : Family)
    (bytes : Vector UInt8 16) (value : Int) : Prop where
  split :
    ∃ addr number,
      item = addr ++ slash :: number ∧ addr ≠ [] ∧ slash ∉ addr ∧
        slash ∉ number ∧
          (family = if colon ∈ addr then .inet6 else .inet) ∧
            inetPton inet family addr = some bytes ∧
              Decimal number value

/-- The item is the notation of the block. -/
def Denotes (inet : Inet) (item : Text) (block : CidrBlock) : Prop :=
  ∃ value,
    Parts inet item block.family block.addr value ∧ 0 ≤ value ∧
      value ≤ maxprefix block.family ∧
        (block.prefixlen.toNat : Int) = value

/--
The item is accepted, and the block which it denotes is added; or it denotes
no block and is rejected.
-/
def Correct (inet : Inet) (conf : Nspconf) (item : Text) : Prop :=
  (∃ block,
    Denotes inet item block ∧
      addDirectCidr inet conf item =
        .ok (nspconfAddDirectCidrRaw conf block)) ∨
    ((∀ block, ¬ Denotes inet item block) ∧
      ∃ message, addDirectCidr inet conf item = .error message)

/--
The number is out of range, but not after it was clamped to a `long` and cut
to an `int`.
-/
def Wraps (family : Family) (value : Int) : Prop :=
  value < -2 ^ 63 ∨
    (value < 2 ^ 63 ∧ ¬ (0 ≤ value ∧ value ≤ maxprefix family) ∧
      value % 2 ^ 32 ≤ maxprefix family)

/-! ## Which numbers are accepted -/

theorem familyOf_eq (addr : Text) :
    familyOf addr = if colon ∈ addr then .inet6 else .inet := by
  by_cases present : colon ∈ addr
  · rw [familyOf, if_neg, if_pos present]
    intro absent
    exact strchr_none.mp absent present
  · rw [familyOf, if_pos (strchr_none.mpr present), if_neg present]

/-- A number in range is left as it is. -/
theorem cut_of_range
    {value bound : Int} (small : bound ≤ 128) (least : 0 ≤ value)
    (most : value ≤ bound) :
    toInt32 (clampLong value) = value := by
  have clamped : clampLong value = value := by
    rw [clampLong]
    omega
  rw [clamped, toInt32]
  apply Int.bmod_eq_of_le <;> omega

/-- The numbers which come into range. -/
theorem cut_in_range_iff
    {family : Family} {value : Int}
    (outside : ¬ (0 ≤ value ∧ value ≤ maxprefix family)) :
    (0 ≤ toInt32 (clampLong value) ∧
        toInt32 (clampLong value) ≤ maxprefix family) ↔
      Wraps family value := by
  have bound := maxprefix_le family
  rw [Wraps, toInt32, clampLong, Int.bmod_def]
  omega

/-! ## Which items are accepted -/

section Items

variable {inet : Inet} {conf : Nspconf} {item : Text}

/-- What the item is made of is determined. -/
theorem Parts.unique
    {family other : Family} {bytes others : Vector UInt8 16}
    {value number : Int} (first : Parts inet item family bytes value)
    (second : Parts inet item other others number) :
    family = other ∧ bytes = others ∧ value = number := by
  rcases first.split with
    ⟨addr, text, rfl, _, plain, _, rfl, known, decimal⟩
  rcases second.split with
    ⟨addr', text', same, _, plain', _, rfl, known', decimal'⟩
  have offset := strchr_append plain text
  rw [same, strchr_append plain' text'] at offset
  have parts := List.append_inj same (Option.some.inj offset).symm
  rcases parts with ⟨rfl, behind⟩
  cases behind
  rw [known] at known'
  cases known'
  exact ⟨rfl, rfl, decimal.unique decimal'⟩

/-- The outcome for an item with all of its parts. -/
theorem addDirectCidr_parts
    {family : Family} {bytes : Vector UInt8 16} {value : Int}
    (parts : Parts inet item family bytes value) :
    ((0 ≤ toInt32 (clampLong value) ∧
        toInt32 (clampLong value) ≤ maxprefix family) →
      addDirectCidr inet conf item =
        .ok
          (nspconfAddDirectCidrRaw conf
            ⟨family, UInt8.ofNat (toInt32 (clampLong value)).toNat,
              bytes⟩)) ∧
      (¬ (0 ≤ toInt32 (clampLong value) ∧
          toInt32 (clampLong value) ≤ maxprefix family) →
        ∃ message, addDirectCidr inet conf item = .error message) := by
  rcases parts.split with
    ⟨addr, number, rfl, some_byte, plain, single, rfl, known, decimal⟩
  have begun : ¬ (addr.length = 0 ∨ number = []) := by
    rw [not_or]
    exact ⟨fun empty => some_byte (List.length_eq_zero_iff.mp empty),
      decimal.ne_nil⟩
  have front : (addr ++ slash :: number).take addr.length = addr :=
    List.take_left
  have behind :
      (addr ++ slash :: number).drop (addr.length + 1) = number := by
    rw [← List.drop_drop, List.drop_left]
    rfl
  have call :
      addDirectCidr inet conf (addr ++ slash :: number) =
        addDirectCidrParts inet conf addr number := by
    rw [addDirectCidr, strchr_append plain]
    simp only [front, behind, if_neg begun, strchr_none.mpr single,
      ne_eq, not_true_eq_false, if_false]
  rw [call]
  simp only [addDirectCidrParts, strtol_decimal decimal, ne_eq,
    not_true_eq_false, if_false, familyOf_eq]
  constructor
  · intro inside
    rw [if_neg (by omega), known]
  · intro outside
    rw [if_pos (by omega)]
    exact ⟨_, rfl⟩

/-- An item without these parts is rejected. -/
theorem addDirectCidr_error
    (unlike : ∀ family bytes value, ¬ Parts inet item family bytes value) :
    ∃ message, addDirectCidr inet conf item = .error message := by
  rw [addDirectCidr]
  split
  · exact ⟨_, rfl⟩
  · next offset found =>
      rcases strchr_some found with ⟨addr, number, rfl, plain, rfl⟩
      have front : (addr ++ slash :: number).take addr.length = addr :=
        List.take_left
      have behind :
          (addr ++ slash :: number).drop (addr.length + 1) = number := by
        rw [← List.drop_drop, List.drop_left]
        rfl
      simp only [front, behind]
      split
      · exact ⟨_, rfl⟩
      · next begun =>
          rw [not_or] at begun
          split
          · exact ⟨_, rfl⟩
          · next single =>
              simp only [addDirectCidrParts]
              split
              · exact ⟨_, rfl⟩
              · next whole =>
                  split
                  · exact ⟨_, rfl⟩
                  · split
                    · exact ⟨_, rfl⟩
                    · next bytes known =>
                        rcases decimal_of_strtol begun.2
                            (not_not.mp whole) with ⟨value, decimal⟩
                        refine absurd ?_ (unlike (familyOf addr) bytes value)
                        refine
                          ⟨addr, number, rfl, ?_, plain,
                            strchr_none.mp (not_not.mp single),
                            familyOf_eq addr, known, decimal⟩
                        rintro rfl
                        exact begun.1 rfl

/-- A number which comes into range on the way is accepted. -/
theorem not_correct_of_wraps
    {family : Family} {bytes : Vector UInt8 16} {value : Int}
    (parts : Parts inet item family bytes value)
    (wraps : Wraps family value) :
    ¬ Correct inet conf item := by
  have outside : ¬ (0 ≤ value ∧ value ≤ maxprefix family) := by
    rcases wraps with low | ⟨_, outside, _⟩
    · omega
    · exact outside
  have stored :=
    (@addDirectCidr_parts inet conf item family bytes value parts).1
      ((cut_in_range_iff outside).mpr wraps)
  rintro (⟨block, ⟨number, named, least, most, _⟩, _⟩ |
    ⟨_, message, rejected⟩)
  · rcases parts.unique named with ⟨rfl, _, rfl⟩
    exact outside ⟨least, most⟩
  · rw [stored] at rejected
    cases rejected

/-- Every other number is compared as it was written. -/
theorem correct_of_not_wraps
    {family : Family} {bytes : Vector UInt8 16} {value : Int}
    (parts : Parts inet item family bytes value)
    (straight : ¬ Wraps family value) :
    Correct inet conf item := by
  have bound := maxprefix_le family
  have outcome :=
    @addDirectCidr_parts inet conf item family bytes value parts
  by_cases inside : 0 ≤ value ∧ value ≤ maxprefix family
  · have same : toInt32 (clampLong value) = value :=
      cut_of_range (by omega) inside.1 inside.2
    rw [same] at outcome
    refine
      .inl
        ⟨_, ⟨value, parts, inside.1, inside.2, ?_⟩, outcome.1 inside⟩
    have small : value.toNat < 2 ^ 8 := by omega
    rw [UInt8.toNat_ofNat_of_lt' small]
    omega
  · rw [cut_in_range_iff inside] at outcome
    refine .inr ⟨?_, outcome.2 straight⟩
    rintro block ⟨number, named, least, most, _⟩
    rcases parts.unique named with ⟨rfl, _, rfl⟩
    exact inside ⟨least, most⟩

/--
`add_direct_cidr` accepts the item and adds the block which it denotes, or
rejects an item which denotes none, exactly when its number does not come
into range only by being clamped and cut.
-/
theorem add_direct_cidr_iff
    (inet : Inet) (conf : Nspconf) (item : Text) :
    Correct inet conf item ↔
      ∀ family bytes value,
        Parts inet item family bytes value → ¬ Wraps family value := by
  constructor
  · intro correct family bytes value parts wraps
    exact not_correct_of_wraps parts wraps correct
  · intro straight
    by_cases parts : ∃ family bytes value, Parts inet item family bytes value
    · rcases parts with ⟨family, bytes, value, parts⟩
      exact correct_of_not_wraps parts (straight family bytes value parts)
    · refine .inr ⟨?_, addDirectCidr_error ?_⟩
      · rintro block ⟨value, named, _⟩
        exact parts ⟨_, _, _, named⟩
      · intro family bytes value named
        exact parts ⟨_, _, _, named⟩

end Items

/-- The item `1.2.3.4/4294967304`; the number is eight more than `2 ^ 32`. -/
def wrappedItem : Text := ascii "1.2.3.4/4294967304"

theorem parts_wrappedItem :
    Parts textInet wrappedItem .inet
      (vectorOf 16 ([1, 2, 3, 4] ++ List.replicate 12 0)) 4294967304 := by
  refine
    ⟨ascii "1.2.3.4", ascii "4294967304", by decide +kernel,
      by decide +kernel, by decide +kernel, by decide +kernel,
      by decide +kernel, by decide +kernel, ?_⟩
  exact
    ⟨[], [], 1, ascii "4294967304", by decide +kernel, by decide +kernel,
      .none, by decide +kernel, by decide +kernel, by decide +kernel⟩

/-- The block `1.2.3.4/8` is stored for it. -/
theorem add_direct_cidr_wraps :
    addDirectCidr textInet sampleProcess.conf wrappedItem =
        .ok
          (nspconfAddDirectCidrRaw sampleProcess.conf
            ⟨.inet, 8,
              vectorOf 16 ([1, 2, 3, 4] ++ List.replicate 12 0)⟩) ∧
      ¬ Correct textInet sampleProcess.conf wrappedItem := by
  refine ⟨by decide +kernel, not_correct_of_wraps parts_wrappedItem ?_⟩
  right
  decide

end Nsproxy.Args.CidrArgs
