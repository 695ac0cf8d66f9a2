import Mathlib.Tactic.Common
import Nsproxy.Conf
import Nsproxy.Lib.Table

/-!
# The decision on CIDR blocks

What `is_direct_cidr_target` answers after a sequence of calls of
`nspconf_add_direct_cidr_raw`.  A block covers an address of its family when
both agree on the leading bits; the comparison of whole bytes and of one
masked byte in `cidr_match_bytes` decides exactly this.

The memory for the table comes from `realloc`, which grants no request above
the largest object size.  This is why the capacity, which is a `size_t`, never
wraps around and always covers the entries of the table.
-/

namespace Nsproxy.Core.CidrTable

open Nsproxy.Conf
open Nsproxy.Lib.Table

/-! ## Bits of an address -/

/-- The bit with this number, the most significant one first. -/
def bitAt (bytes : List UInt8) (index : Nat) : Bool :=
  (bytes.getD (index / 8) 0).toBitVec.getMsbD (index % 8)

/-- Both byte strings begin with the same bits. -/
def Agree (count : Nat) (bytes others : List UInt8) : Prop :=
  ∀ index < count, bitAt bytes index = bitAt others index

/-- The block is one of the address's family and agrees with its prefix. -/
def Covers (cidr : CidrBlock) (addr : IpAddr) : Prop :=
  cidr.family = addr.family ∧
    Agree cidr.prefixlen.toNat cidr.addr.toList addr.raw

/-- The longest prefix of a family. -/
def maxprefix : Family → Nat
  | .inet => 32
  | .inet6 => 128

theorem maxprefix_le (family : Family) : maxprefix family ≤ 128 := by
  cases family with
  | inet => decide
  | inet6 => decide

/-- Bytes are equal when their bits are. -/
theorem byte_eq_iff {byte other : UInt8} :
    byte = other ↔
      ∀ index < 8,
        byte.toBitVec.getMsbD index = other.toBitVec.getMsbD index := by
  constructor
  · rintro rfl index _
    rfl
  · intro same
    apply UInt8.toBitVec_inj.mp
    apply BitVec.eq_of_getMsbD_eq
    intro index inside
    exact same index inside

/-- The mask for the bits behind the whole bytes. -/
theorem getMsbD_mask {bits : Nat} (few : bits < 8) {index : Nat}
    (inside : index < 8) :
    (UInt8.ofNat (0xff <<< (8 - bits))).toBitVec.getMsbD index =
      decide (index < bits) := by
  have all :
      ∀ bits < 8, ∀ index < 8,
        (UInt8.ofNat (0xff <<< (8 - bits))).toBitVec.getMsbD index =
          decide (index < bits) := by
    decide +kernel
  exact all bits few index inside

/-- Masked bytes are equal when their first bits are. -/
theorem masked_eq_iff {bits : Nat} (few : bits < 8) {byte other : UInt8} :
    byte &&& UInt8.ofNat (0xff <<< (8 - bits)) =
        other &&& UInt8.ofNat (0xff <<< (8 - bits)) ↔
      ∀ index < bits,
        byte.toBitVec.getMsbD index = other.toBitVec.getMsbD index := by
  rw [byte_eq_iff]
  constructor
  · intro same index inside
    have bit := same index (Nat.lt_trans inside few)
    rw [UInt8.toBitVec_and, UInt8.toBitVec_and, BitVec.getMsbD_and,
      BitVec.getMsbD_and, getMsbD_mask few (Nat.lt_trans inside few),
      decide_eq_true inside, Bool.and_true, Bool.and_true] at bit
    exact bit
  · intro same index inside
    rw [UInt8.toBitVec_and, UInt8.toBitVec_and, BitVec.getMsbD_and,
      BitVec.getMsbD_and, getMsbD_mask few inside]
    by_cases leading : index < bits
    · rw [same index leading]
    · rw [decide_eq_false leading, Bool.and_false, Bool.and_false]

/-- Whole bytes are equal when their bits are. -/
theorem take_eq_iff
    {bytes others : List UInt8} {count : Nat}
    (enough : count ≤ bytes.length) (plenty : count ≤ others.length) :
    bytes.take count = others.take count ↔
      Agree (8 * count) bytes others := by
  have bytewise :
      bytes.take count = others.take count ↔
        ∀ index < count, bytes.getD index 0 = others.getD index 0 := by
    constructor
    · intro same index inside
      have first : (bytes.take count).getD index 0 = bytes.getD index 0 := by
        simp [List.getD, inside]
      have second :
          (others.take count).getD index 0 = others.getD index 0 := by
        simp [List.getD, inside]
      rw [← first, ← second, same]
    · intro same
      apply List.ext_getElem
      · rw [List.length_take, List.length_take, Nat.min_eq_left enough,
          Nat.min_eq_left plenty]
      · intro index inside _
        rw [List.length_take, Nat.min_eq_left enough] at inside
        have byte := same index inside
        have here : index < bytes.length := by omega
        have there : index < others.length := by omega
        rw [List.getElem_take, List.getElem_take]
        simpa [List.getD, here, there] using byte
  rw [bytewise]
  constructor
  · intro same index inside
    have whole : index / 8 < count := by omega
    rw [bitAt, bitAt, same _ whole]
  · intro agree index inside
    apply byte_eq_iff.mpr
    intro bit small
    have same := agree (8 * index + bit) (by omega)
    have quotient : (8 * index + bit) / 8 = index := by omega
    have remainder : (8 * index + bit) % 8 = bit := by omega
    rw [bitAt, bitAt, quotient, remainder] at same
    exact same

/-- `cidr_match_bytes` compares the leading bits. -/
theorem cidrMatchBytes_iff
    {addr network : List UInt8} {prefixlen : UInt8}
    (enough : prefixlen.toNat / 8 ≤ addr.length)
    (plenty : prefixlen.toNat / 8 ≤ network.length) :
    cidrMatchBytes addr network prefixlen = true ↔
      Agree prefixlen.toNat addr network := by
  have few : prefixlen.toNat % 8 < 8 := Nat.mod_lt _ (by decide)
  simp only [cidrMatchBytes, Bool.and_eq_true, Bool.or_eq_true,
    beq_iff_eq]
  rw [take_eq_iff enough plenty]
  constructor
  · rintro ⟨whole, rest⟩ index inside
    by_cases leading : index < 8 * (prefixlen.toNat / 8)
    · exact whole index leading
    · have quotient : index / 8 = prefixlen.toNat / 8 := by omega
      rcases rest with zero | masked
      · omega
      · rw [bitAt, bitAt, quotient]
        apply (masked_eq_iff few).mp masked
        omega
  · intro agree
    constructor
    · intro index inside
      exact agree index (by omega)
    · right
      apply (masked_eq_iff few).mpr
      intro bit small
      have same := agree (8 * (prefixlen.toNat / 8) + bit) (by omega)
      have quotient :
          (8 * (prefixlen.toNat / 8) + bit) / 8 =
            prefixlen.toNat / 8 := by
        omega
      have remainder : (8 * (prefixlen.toNat / 8) + bit) % 8 = bit := by
        omega
      rw [bitAt, bitAt, quotient, remainder] at same
      exact same

theorem Agree.comm {count : Nat} {bytes others : List UInt8} :
    Agree count bytes others ↔ Agree count others bytes := by
  constructor
  · intro agree index inside
    exact (agree index inside).symm
  · intro agree index inside
    exact (agree index inside).symm

theorem length_raw (addr : IpAddr) : addr.raw.length = 16 := by
  cases addr with
  | v4 addr =>
      rw [IpAddr.raw, List.length_append, Vector.length_toList,
        List.length_replicate]
  | v6 addr => exact Vector.length_toList

/-- A block of the table covers what its prefix says. -/
theorem matches_iff
    {cidr : CidrBlock} (bounded : cidr.prefixlen.toNat ≤ 128)
    (addr : IpAddr) :
    cidr.matches addr = true ↔ Covers cidr addr := by
  have bytes : cidr.prefixlen.toNat / 8 ≤ 16 := by omega
  rw [CidrBlock.matches, Bool.and_eq_true, beq_iff_eq, cidrMatchBytes_iff,
    Agree.comm, Covers]
  · rw [length_raw]
    exact bytes
  · rw [Vector.length_toList]
    exact bytes

/-! ## The memory of the table -/

/-- `sizeof(struct cidr_block)`. -/
def sizeofCidrBlock : Nat := 18

/--
The allocator of the C library, which grants no request above the largest
object size.
-/
structure Allocator (Memory : Type) where
  realloc : Memory → Nat → Option Memory
  limited :
    ∀ {memory : Memory} {size : Nat} {next : Memory},
      realloc memory size = some next → size < 2 ^ 63

/-- The memory of the process, and its configuration. -/
structure Process (Memory : Type) where
  memory : Memory
  conf : Nspconf

/--
`nspconf_add_direct_cidr_raw` with its request for memory; there is no result
when the request fails and the process ends.
-/
def addDirectCidrRaw
    {Memory : Type} (allocator : Allocator Memory)
    (process : Process Memory) (block : CidrBlock) :
    Option (Process Memory) :=
  if block ∉ process.conf.directCidrs ∧
      process.conf.directCidrs.length =
        process.conf.directCidrCapacity then
    match
      allocator.realloc process.memory
        (nextCapacity process.conf.directCidrCapacity *
          sizeofCidrBlock % 2 ^ 64) with
    | none => none
    | some memory =>
        some ⟨memory, nspconfAddDirectCidrRaw process.conf block⟩
  else
    some
      ⟨process.memory, nspconfAddDirectCidrRaw process.conf block⟩

/-- The calls for a sequence of blocks. -/
def addDirectCidrs
    {Memory : Type} (allocator : Allocator Memory) :
    Process Memory → List CidrBlock → Option (Process Memory)
  | process, [] => some process
  | process, block :: blocks =>
      match addDirectCidrRaw allocator process block with
      | none => none
      | some next => addDirectCidrs allocator next blocks

/-- The capacity of a table which is full. -/
theorem nextCapacity_eq {current : Nat} (small : current < 2 ^ 63) :
    nextCapacity current = max 16 (current + 1) := by
  by_cases below : current < 16
  · rw [nextCapacity_small below]
    omega
  · rw [nextCapacity_large (Nat.not_lt.mp below),
      Nat.mod_eq_of_lt (by omega)]
    omega

/-- The entries are in the memory which was granted for them. -/
structure Fits (conf : Nspconf) : Prop where
  inside : conf.directCidrs.length ≤ conf.directCidrCapacity
  granted : conf.directCidrCapacity * sizeofCidrBlock < 2 ^ 63

section Additions

variable {Memory : Type} {allocator : Allocator Memory}

/-- Every addition which returns has the effect of the model of the call. -/
theorem addDirectCidrRaw_eq
    {process next : Process Memory} {block : CidrBlock}
    (added : addDirectCidrRaw allocator process block = some next) :
    next.conf = nspconfAddDirectCidrRaw process.conf block := by
  rw [addDirectCidrRaw] at added
  split at added
  · split at added
    · cases added
    · cases added
      rfl
  · cases added
    rfl

/-- An addition keeps the entries in the memory of the table. -/
theorem Fits.add
    {process next : Process Memory} {block : CidrBlock}
    (fits : Fits process.conf)
    (added : addDirectCidrRaw allocator process block = some next) :
    Fits next.conf := by
  rw [addDirectCidrRaw_eq added]
  by_cases present : block ∈ process.conf.directCidrs
  · rw [nspconfAddDirectCidrRaw, if_pos present]
    exact fits
  · have inside := fits.inside
    have granted := fits.granted
    rw [nspconfAddDirectCidrRaw, if_neg present]
    by_cases full :
        process.conf.directCidrs.length = process.conf.directCidrCapacity
    · rw [addDirectCidrRaw, if_pos ⟨present, full⟩] at added
      split at added
      · cases added
      · next memory answer =>
          have size := allocator.limited answer
          rw [sizeofCidrBlock] at size granted
          have small : process.conf.directCidrCapacity < 2 ^ 63 := by
            omega
          rw [nextCapacity_eq small] at size
          constructor
          · simp only [if_pos full, nextCapacity_eq small,
              List.length_append, List.length_singleton]
            omega
          · simp only [if_pos full, nextCapacity_eq small,
              sizeofCidrBlock]
            omega
    · constructor
      · simp only [if_neg full, List.length_append,
          List.length_singleton]
        omega
      · simp only [if_neg full]
        exact granted

theorem addDirectCidrs_cons
    {process next : Process Memory} {block : CidrBlock}
    {blocks : List CidrBlock}
    (added :
      addDirectCidrs allocator process (block :: blocks) = some next) :
    ∃ between,
      addDirectCidrRaw allocator process block = some between ∧
        addDirectCidrs allocator between blocks = some next := by
  rw [addDirectCidrs] at added
  split at added
  · cases added
  · next between first => exact ⟨between, first, added⟩

/-- A sequence of additions keeps the entries in the memory of the table. -/
theorem Fits.addAll
    {process next : Process Memory} {blocks : List CidrBlock}
    (fits : Fits process.conf)
    (added : addDirectCidrs allocator process blocks = some next) :
    Fits next.conf := by
  induction blocks generalizing process with
  | nil =>
      cases added
      exact fits
  | cons block blocks induction =>
      rcases addDirectCidrs_cons added with ⟨between, first, rest⟩
      exact induction (fits.add first) rest

/-- The table and the mode after a sequence of additions. -/
theorem addDirectCidrs_table
    {process next : Process Memory} {blocks : List CidrBlock}
    (added : addDirectCidrs allocator process blocks = some next) :
    next.conf.directCidrs =
        blocks.foldl insertNew process.conf.directCidrs ∧
      next.conf.directCidrMode = process.conf.directCidrMode := by
  induction blocks generalizing process with
  | nil =>
      cases added
      exact ⟨rfl, rfl⟩
  | cons block blocks induction =>
      rcases addDirectCidrs_cons added with ⟨between, first, rest⟩
      have table :
          between.conf.directCidrs =
              insertNew process.conf.directCidrs block ∧
            between.conf.directCidrMode =
              process.conf.directCidrMode := by
        rw [addDirectCidrRaw_eq first, nspconfAddDirectCidrRaw, insertNew]
        split
        · exact ⟨rfl, rfl⟩
        · exact ⟨rfl, rfl⟩
      rcases induction rest with ⟨entries, mode⟩
      rw [entries, mode, table.1, table.2]
      exact ⟨rfl, rfl⟩

end Additions

/-! ## The decision -/

/-- The early return agrees with the search of the whole table. -/
theorem isDirectCidrTarget_iff (conf : Nspconf) (addr : IpAddr) :
    isDirectCidrTarget conf addr = true ↔
      match conf.directCidrMode with
      | .whitelist => ∃ cidr ∈ conf.directCidrs, cidr.matches addr = true
      | .blacklist =>
          ¬ ∃ cidr ∈ conf.directCidrs, cidr.matches addr = true := by
  rw [isDirectCidrTarget]
  cases mode : conf.directCidrMode with
  | whitelist =>
      cases table : conf.directCidrs with
      | nil => simp
      | cons first rest => simp
  | blacklist => simp

/-- The blocks which were added decide about an address. -/
theorem isDirectCidrTarget_added
    {Memory : Type} {allocator : Allocator Memory}
    {process next : Process Memory} {blocks : List CidrBlock}
    (empty : process.conf.directCidrs = [])
    (bounded :
      ∀ block ∈ blocks, block.prefixlen.toNat ≤ maxprefix block.family)
    (added : addDirectCidrs allocator process blocks = some next)
    (addr : IpAddr) :
    isDirectCidrTarget next.conf addr = true ↔
      match process.conf.directCidrMode with
      | .whitelist => ∃ block ∈ blocks, Covers block addr
      | .blacklist => ¬ ∃ block ∈ blocks, Covers block addr := by
  rcases addDirectCidrs_table added with ⟨entries, mode⟩
  have found :
      (∃ cidr ∈ next.conf.directCidrs, cidr.matches addr = true) ↔
        ∃ block ∈ blocks, Covers block addr := by
    rw [entries, empty]
    apply exists_congr
    intro block
    rw [mem_foldl_insertNew]
    constructor
    · rintro ⟨member | member, covers⟩
      · cases member
      · have short := bounded block member
        have long := maxprefix_le block.family
        exact
          ⟨member, (matches_iff (Nat.le_trans short long) addr).mp covers⟩
    · rintro ⟨member, covers⟩
      have short := bounded block member
      have long := maxprefix_le block.family
      exact
        ⟨.inr member,
          (matches_iff (Nat.le_trans short long) addr).mpr covers⟩
  rw [isDirectCidrTarget_iff, mode, found]

/--
After any sequence of additions to an empty table an address is a direct
target, in whitelist mode, exactly when one of the added blocks covers it,
and in blacklist mode exactly when none does.  The answer depends neither on
the order of the additions nor on repetitions, no block is in the table twice,
and the capacity covers the table.
-/
theorem cidr_table_exact
    {Memory : Type} {allocator : Allocator Memory}
    {process next : Process Memory} {blocks : List CidrBlock}
    (empty : process.conf.directCidrs = [])
    (unused : process.conf.directCidrCapacity = 0)
    (bounded :
      ∀ block ∈ blocks, block.prefixlen.toNat ≤ maxprefix block.family)
    (added : addDirectCidrs allocator process blocks = some next) :
    (∀ addr,
      isDirectCidrTarget next.conf addr = true ↔
        match process.conf.directCidrMode with
        | .whitelist => ∃ block ∈ blocks, Covers block addr
        | .blacklist => ¬ ∃ block ∈ blocks, Covers block addr) ∧
      (∀ others other,
        (∀ block, block ∈ others ↔ block ∈ blocks) →
          addDirectCidrs allocator process others = some other →
            ∀ addr,
              isDirectCidrTarget other.conf addr =
                isDirectCidrTarget next.conf addr) ∧
        next.conf.directCidrs.Nodup ∧
          next.conf.directCidrs.length ≤ next.conf.directCidrCapacity := by
  refine ⟨isDirectCidrTarget_added empty bounded added, ?_, ?_, ?_⟩
  · intro others other same again addr
    have short :
        ∀ block ∈ others,
          block.prefixlen.toNat ≤ maxprefix block.family := by
      intro block member
      exact bounded block ((same block).mp member)
    rw [Bool.eq_iff_iff, isDirectCidrTarget_added empty bounded added,
      isDirectCidrTarget_added empty short again]
    simp only [same]
  · rw [(addDirectCidrs_table added).1, empty]
    exact nodup_foldl_insertNew List.Pairwise.nil _
  · have fits : Fits process.conf := by
      constructor
      · rw [empty, unused]
        exact Nat.le_refl 0
      · rw [unused]
        decide
    exact (fits.addAll added).inside

/-- An allocator which grants every request up to the largest object. -/
def generous : Allocator Unit where
  realloc _ size := if size < 2 ^ 63 then some () else none
  limited := by
    intro memory size next granted
    split at granted
    · assumption
    · cases granted

/-- A process at its start. -/
def sampleProcess : Process Unit where
  memory := ()
  conf :=
    { proxysrv := []
      proxyport := 0
      proxytype := .socks5
      dnssrv := []
      dnsport := 0
      dnstype := .off
      proxyuser := []
      proxypass := []
      ipv6 := false
      directCidrs := []
      directCidrCapacity := 0
      directCidrMode := .whitelist }

/-- The block `10.0.0.1/7`, whose host bits are set. -/
def sampleBlock : CidrBlock where
  family := .inet
  prefixlen := 7
  addr := Vector.ofFn fun index =>
    (sampleV4.toList ++ List.replicate 12 0).getD index 0

/-- The block covers `11.0.0.0`, which differs in the eighth bit. -/
theorem cidr_table_sample :
    ∃ next,
      addDirectCidrs generous sampleProcess [sampleBlock, sampleBlock] =
          some next ∧
        isDirectCidrTarget next.conf
          (.v4 (Vector.ofFn fun index => if index = 0 then 11 else 0)) =
            true ∧
          next.conf.directCidrs.length ≤ next.conf.directCidrCapacity := by
  have added :
      ∃ next,
        addDirectCidrs generous sampleProcess
          [sampleBlock, sampleBlock] = some next := by
    apply Option.isSome_iff_exists.mp
    decide +kernel
  rcases added with ⟨next, added⟩
  have bounded :
      ∀ block ∈ [sampleBlock, sampleBlock],
        block.prefixlen.toNat ≤ maxprefix block.family := by
    decide
  have exact_ := cidr_table_exact rfl rfl bounded added
  refine ⟨next, added, (exact_.1 _).mpr ?_, exact_.2.2.2⟩
  refine ⟨sampleBlock, List.mem_cons_self, rfl, ?_⟩
  intro index inside
  have all :
      ∀ index < 7,
        bitAt sampleBlock.addr.toList index =
          bitAt
            (IpAddr.v4
              (Vector.ofFn fun index => if index = 0 then 11 else 0)).raw
            index := by
    decide +kernel
  exact all index inside

end Nsproxy.Core.CidrTable
