import Mathlib.Data.List.Basic
import Nsproxy.Conf
import Nsproxy.Lib.OnesComplement
import Nsproxy.Lwip.Buffers

/-!
# The Internet checksum

`lwip_standard_chksum` adds the bytes two at a time in the byte order of the
host, from wherever they begin in memory; a text which begins at an odd
address is summed with its halves exchanged and the sum is swapped back.  The
checksums over a chain of pbufs continue the sum from one pbuf to the next
one, and swap it behind every pbuf of odd length.  Sums are `u32_t` and wrap
at 2^32.

What comes out is stored in a header as it is.  So the order of the host, the
alignment of the pbufs, and where the bytes are divided should not matter:
the stored bytes are the checksum of the whole text, as RFC 1071 has it.
-/

namespace Nsproxy.Lwip.Chksum

open Nsproxy.Conf
open Nsproxy.Lib.OnesComplement
open Nsproxy.Lwip.Buffers

/-! ## Words in memory -/

/-- The byte order of the host. -/
inductive ByteOrder where
  | little
  | big
deriving DecidableEq, Repr

/-- The first byte in memory is the high half of a word. -/
def ByteOrder.high : ByteOrder → Bool
  | .little => false
  | .big => true

/-- The `u16_t` which has these bytes in memory. -/
def load16 (order : ByteOrder) (first second : UInt8) : Nat :=
  match order with
  | .little => first.toNat + 256 * second.toNat
  | .big => 256 * first.toNat + second.toNat

/-- The bytes of a `u16_t` in memory. -/
def store16 (order : ByteOrder) (value : Nat) : UInt8 × UInt8 :=
  match order with
  | .little => (UInt8.ofNat (value % 256), UInt8.ofNat (value / 256))
  | .big => (UInt8.ofNat (value / 256), UInt8.ofNat (value % 256))

/-- `u32_t` addition. -/
def addU32 (first second : Nat) : Nat := (first + second) % 2 ^ 32

/-- `FOLD_U32T`. -/
def foldU32t (word : Nat) : Nat := word / 65536 + word % 65536

/-- `SWAP_BYTES_IN_WORD`. -/
def swapBytesInWord (word : Nat) : Nat :=
  word % 256 * 256 + word / 256 % 256

/-- `lwip_htons`. -/
def htons (order : ByteOrder) (value : Nat) : Nat :=
  match order with
  | .little => swapBytesInWord value
  | .big => value

/-- The `u32_t` which has these bytes in memory. -/
def load32 (order : ByteOrder) (first second third fourth : UInt8) : Nat :=
  match order with
  | .little =>
      load16 .little first second + 65536 * load16 .little third fourth
  | .big => 65536 * load16 .big first second + load16 .big third fourth

/-! ## One piece of memory -/

/-- The loop over the bulk of the data, and the byte which is left over. -/
def sumWords (order : ByteOrder) : Nat → List UInt8 → Nat × Option UInt8
  | sum, first :: second :: rest =>
      sumWords order (addU32 sum (load16 order first second)) rest
  | sum, [last] => (sum, some last)
  | sum, [] => (sum, none)

/-- `lwip_standard_chksum`; `odd` says that `dataptr` is an odd address. -/
def lwipStandardChksum
    (order : ByteOrder) (odd : Bool) (data : List UInt8) : Nat :=
  let first := if odd then data.head? else none
  let aligned := if odd then data.tail else data
  let bulk := sumWords order 0 aligned
  let ends := load16 order (bulk.2.getD 0) (first.getD 0)
  let sum := foldU32t (foldU32t (addU32 bulk.1 ends))
  (if odd then swapBytesInWord sum else sum) % 65536

/-- `inet_chksum`. -/
def inetChksum (order : ByteOrder) (odd : Bool) (data : List UInt8) : Nat :=
  65535 - lwipStandardChksum order odd data

/-! ## Chains -/

/-- A pbuf, and whether its `payload` is an odd address. -/
structure Placed where
  odd : Bool
  pbuf : Pbuf

/-- A chain in memory, whose `tot_len` fields mean what they say. -/
structure Packet where
  pbufs : List Placed
  sound : TotLensSound (pbufs.map Placed.pbuf)

namespace Packet

/-- The bytes of the packet. -/
def bytes (packet : Packet) : List UInt8 :=
  payloads (packet.pbufs.map Placed.pbuf)

/-- `p->tot_len`. -/
def totLen (packet : Packet) : Nat :=
  match packet.pbufs with
  | [] => 0
  | first :: _ => first.pbuf.totLen

/-- `p->len`. -/
def firstLen (packet : Packet) : Nat :=
  match packet.pbufs with
  | [] => 0
  | first :: _ => first.pbuf.len

end Packet

/-- One turn of the loops over a chain: the sum, and `swapped`. -/
def addPbuf (order : ByteOrder) (state : Nat × Bool) (placed : Placed) :
    Nat × Bool :=
  let acc :=
    foldU32t
      (addU32 state.1
        (lwipStandardChksum order placed.odd placed.pbuf.payload))
  if placed.pbuf.len % 2 ≠ 0 then
    (swapBytesInWord acc, !state.2)
  else
    (acc, state.2)

/-- The loop over a chain, and the swap behind it. -/
def sumPbufs (order : ByteOrder) (acc : Nat) (packet : Packet) : Nat :=
  let state := packet.pbufs.foldl (addPbuf order) (acc, false)
  if state.2 then swapBytesInWord state.1 else state.1

/-- `inet_chksum_pbuf`. -/
def inetChksumPbuf (order : ByteOrder) (packet : Packet) : Nat :=
  65535 - sumPbufs order 0 packet % 65536

/-- `inet_cksum_pseudo_base`. -/
def inetCksumPseudoBase
    (order : ByteOrder) (packet : Packet) (proto : UInt8)
    (protoLen acc : Nat) : Nat :=
  let sum := sumPbufs order acc packet
  let withProto := addU32 sum (htons order proto.toNat)
  let withLen := addU32 withProto (htons order protoLen)
  65535 - foldU32t (foldU32t withLen) % 65536

/-- The halves of an address word. -/
def addAddr (acc addr : Nat) : Nat :=
  addU32 (addU32 acc (addr % 65536)) (addr / 65536 % 65536)

/-- The words of both addresses, in turn. -/
def addAddrs (order : ByteOrder) :
    Nat → List UInt8 → List UInt8 → Nat
  | acc, a :: b :: c :: d :: src, e :: f :: g :: h :: dest =>
      addAddrs order
        (addAddr (addAddr acc (load32 order a b c d))
          (load32 order e f g h))
        src dest
  | acc, _, _ => acc

/-- The source and the destination of a packet, of one family. -/
inductive Ends where
  | v4 (src dest : Vector UInt8 4)
  | v6 (src dest : Vector UInt8 16)
deriving DecidableEq, Repr

/-- `inet_chksum_pseudo`. -/
def inetChksumPseudo
    (order : ByteOrder) (packet : Packet) (proto : UInt8) (protoLen : Nat)
    (src dest : Vector UInt8 4) : Nat :=
  let acc := addAddrs order 0 src.toList dest.toList
  inetCksumPseudoBase order packet proto protoLen
    (foldU32t (foldU32t acc))

/-- `ip6_chksum_pseudo`. -/
def ip6ChksumPseudo
    (order : ByteOrder) (packet : Packet) (proto : UInt8) (protoLen : Nat)
    (src dest : Vector UInt8 16) : Nat :=
  let acc := addAddrs order 0 src.toList dest.toList
  inetCksumPseudoBase order packet proto protoLen
    (foldU32t (foldU32t acc))

/-- `ip_chksum_pseudo`. -/
def ipChksumPseudo
    (order : ByteOrder) (packet : Packet) (proto : UInt8) (protoLen : Nat) :
    Ends → Nat
  | .v4 src dest =>
      inetChksumPseudo order packet proto protoLen src dest
  | .v6 src dest =>
      ip6ChksumPseudo order packet proto protoLen src dest

/-! ## What a checksum is for -/

/-- The value of every byte. -/
def digits (bytes : List UInt8) : List Nat := bytes.map UInt8.toNat

/-- The checksum of a text, as RFC 1071 has it. -/
def checksum (bytes : List UInt8) : Nat :=
  65535 - carried 65535 (wordSum 256 (digits bytes))

/-- A 16-bit number on the wire. -/
def wire16 (value : Nat) : UInt8 × UInt8 := store16 .big value

/-- The pseudo headers of IPv4 and of IPv6. -/
def pseudoHeader (proto : UInt8) (protoLen : Nat) : Ends → List UInt8
  | .v4 src dest =>
      src.toList ++ dest.toList ++
        [0, proto, (wire16 protoLen).1, (wire16 protoLen).2]
  | .v6 src dest =>
      src.toList ++ dest.toList ++
        [0, 0, (wire16 protoLen).1, (wire16 protoLen).2] ++
        [0, 0, 0, proto]

/-! ## One piece of memory is summed as a whole -/

theorem two_le : 2 ≤ 256 := by decide

theorem foldU32t_eq (word : Nat) : foldU32t word = fold 65535 word := rfl

theorem swapBytesInWord_eq {word : Nat} (small : word ≤ 65535) :
    swapBytesInWord word = swap 256 word := by
  have high : word / 256 < 256 := Nat.div_lt_of_lt_mul (by omega)
  simp only [swapBytesInWord, swap, Nat.mod_eq_of_lt high]

theorem swapBytesInWord_eq_carried {word : Nat} (small : word ≤ 65535) :
    swapBytesInWord word = carried 65535 (256 * word) := by
  rw [swapBytesInWord_eq small, swap_eq_carried two_le small]
  rfl

theorem addU32_of_lt {first second : Nat}
    (small : first + second < 2 ^ 32) :
    addU32 first second = first + second :=
  Nat.mod_eq_of_lt small

/-- The sum of bytes which begin at the first or the second half of a word. -/
def byteSum (high : Bool) (bytes : List UInt8) : Nat :=
  laneSum 256 high (digits bytes)

@[simp]
theorem byteSum_nil (high : Bool) : byteSum high [] = 0 := rfl

theorem byteSum_append (high : Bool) (front back : List UInt8) :
    byteSum high (front ++ back) =
      byteSum high front +
        byteSum (if front.length % 2 = 0 then high else !high) back := by
  simp only [byteSum, digits, List.map_append, laneSum_append, laneAfter,
    List.length_map]

theorem carried_mul_byteSum (high : Bool) (bytes : List UInt8) :
    carried 65535 (256 * byteSum high bytes) =
      carried 65535 (byteSum (!high) bytes) :=
  carried_mul_laneSum two_le high (digits bytes)

theorem load16_eq (order : ByteOrder) (first second : UInt8) :
    load16 order first second =
      byteSum order.high [first] + byteSum (!order.high) [second] := by
  cases order <;>
    simp [load16, byteSum, digits, laneSum, ByteOrder.high]

theorem byteSum_pair (order : ByteOrder) (first second : UInt8)
    (rest : List UInt8) :
    byteSum order.high (first :: second :: rest) =
      load16 order first second + byteSum order.high rest := by
  cases order <;>
    simp only [load16, byteSum, digits, laneSum, ByteOrder.high,
      List.map_cons] <;>
    omega

@[simp]
theorem byteSum_zero (high : Bool) : byteSum high [0] = 0 := by
  cases high <;> rfl

/-- The first byte, which is left out of the bulk at an odd address. -/
theorem byteSum_uncons (high : Bool) (data : List UInt8) :
    byteSum (!high) data =
      byteSum (!high) [data.head?.getD 0] + byteSum high data.tail := by
  cases data with
  | nil => simp
  | cons first rest =>
      have parts := byteSum_append (!high) [first] rest
      simpa using parts

theorem byteSum_four (high : Bool) (a b c d : UInt8) :
    byteSum high [a, b, c, d] = byteSum high [a, b] + byteSum high [c, d] := by
  simpa using byteSum_append high [a, b] [c, d]

@[simp]
theorem byteSum_zeros (high : Bool) : byteSum high [0, 0] = 0 := by
  cases high <;> rfl

theorem load16_lt (order : ByteOrder) (first second : UInt8) :
    load16 order first second ≤ 65535 := by
  have low := first.toNat_lt
  have high := second.toNat_lt
  cases order <;> simp only [load16] <;> omega

/-- The bulk and the byte which is left over are the whole. -/
theorem sumWords_eq
    (order : ByteOrder) (sum : Nat) (data : List UInt8)
    (small : sum + 65535 * (data.length / 2) < 2 ^ 32) :
    (sumWords order sum data).1 +
        load16 order ((sumWords order sum data).2.getD 0) 0 =
      sum + byteSum order.high data ∧
    (sumWords order sum data).1 ≤ sum + 65535 * (data.length / 2) := by
  induction sum, data using sumWords.induct order with
  | case1 sum first second rest induction =>
      have word := load16_lt order first second
      have count :
          (first :: second :: rest).length / 2 = rest.length / 2 + 1 := by
        simp only [List.length_cons]
        omega
      rw [count] at small
      have unwrapped :
          addU32 sum (load16 order first second) =
            sum + load16 order first second :=
        addU32_of_lt (by omega)
      have later := induction (by rw [unwrapped]; omega)
      rw [unwrapped] at later
      simp only [sumWords, unwrapped, byteSum_pair, count]
      omega
  | case2 sum last =>
      refine ⟨?_, by simp [sumWords]⟩
      have alone : byteSum (!order.high) [0] = 0 := by
        cases order <;> rfl
      simp only [sumWords, Option.getD_some, load16_eq, alone]
      omega
  | case3 sum =>
      refine ⟨?_, by simp [sumWords]⟩
      cases order <;> rfl

/-- Two folds of a `u32_t` carry everything in. -/
theorem finish (sum : Nat) (small : sum < 2 ^ 32) :
    foldU32t (foldU32t sum) = carried 65535 sum := by
  rw [foldU32t_eq, foldU32t_eq]
  exact fold_fold small

theorem finish_lt (sum : Nat) : carried 65535 sum < 65536 :=
  Nat.lt_succ_of_le (carried_le (by decide) sum)

/--
Up to the length which the source promises no carry is lost, and neither the
alignment nor what lies at the ends makes a difference.
-/
theorem lwipStandardChksum_eq
    (order : ByteOrder) (odd : Bool) {data : List UInt8}
    (short : data.length ≤ 0x20000) :
    lwipStandardChksum order odd data =
      carried 65535 (byteSum order.high data) := by
  unfold lwipStandardChksum
  cases odd with
  | false =>
      have bulk := sumWords_eq order 0 data (by omega)
      have last := load16_lt order ((sumWords order 0 data).2.getD 0) 0
      have whole :
          addU32 (sumWords order 0 data).1
              (load16 order ((sumWords order 0 data).2.getD 0) 0) =
            byteSum order.high data := by
        rw [addU32_of_lt (by omega), bulk.1, Nat.zero_add]
      have finished := finish (byteSum order.high data) (by omega)
      simp only [Bool.false_eq_true, if_false, Option.getD_none, whole,
        finished]
      exact Nat.mod_eq_of_lt (finish_lt _)
  | true =>
      have bulk := sumWords_eq order 0 data.tail
        (by simp only [List.length_tail]; omega)
      have ends := load16_lt order ((sumWords order 0 data.tail).2.getD 0)
        (data.head?.getD 0)
      have whole :
          addU32 (sumWords order 0 data.tail).1
              (load16 order ((sumWords order 0 data.tail).2.getD 0)
                (data.head?.getD 0)) =
            byteSum (!order.high) data := by
        rw [addU32_of_lt (by simp only [List.length_tail] at bulk; omega),
          byteSum_uncons, load16_eq]
        have rest := bulk.1
        rw [load16_eq, byteSum_zero] at rest
        omega
      have bound : byteSum (!order.high) data < 2 ^ 32 :=
        whole ▸ Nat.mod_lt _ (by decide)
      have finished := finish (byteSum (!order.high) data) bound
      simp only [if_true, whole, finished]
      rw [swapBytesInWord_eq_carried (carried_le (by decide) _),
        carried_mul_carried (by decide), carried_mul_byteSum, Bool.not_not]
      exact Nat.mod_eq_of_lt (finish_lt _)

/-! ## A chain is summed as one text -/

/-- The sum of a text, exchanged if `swapped` says so. -/
def turned (swapped : Bool) (sum : Nat) : Nat :=
  if swapped then 256 * sum else sum

theorem carried_turned_add
    (order : ByteOrder) (swapped : Bool) (sum : Nat) (bytes : List UInt8) :
    carried 65535
        (turned swapped sum + byteSum order.high bytes) =
      carried 65535
        (turned swapped
          (sum + byteSum (if swapped then !order.high else order.high)
            bytes)) := by
  cases swapped with
  | false => rfl
  | true =>
      have other := carried_mul_byteSum (!order.high) bytes
      rw [Bool.not_not] at other
      simp only [turned, if_true]
      rw [Nat.mul_add, ← carried_add_carried (by decide) _
        (byteSum order.high bytes), ← other,
        carried_add_carried (by decide)]

theorem swap_turned (swapped : Bool) (sum : Nat) :
    swapBytesInWord (carried 65535 (turned swapped sum)) =
      carried 65535 (turned (!swapped) sum) := by
  rw [swapBytesInWord_eq_carried (carried_le (by decide) _),
    carried_mul_carried (by decide)]
  cases swapped with
  | false => rfl
  | true => exact carried_unit_unit two_le sum

/-- What the loop knows behind the bytes `front`. -/
structure Continues
    (order : ByteOrder) (start : Nat) (front : List UInt8)
    (state : Nat × Bool) : Prop where
  swapped : state.2 = decide (front.length % 2 ≠ 0)
  acc :
    state.1 =
      carried 65535
        (turned state.2 (start + byteSum order.high front))

theorem Continues.addPbuf
    {order : ByteOrder} {start : Nat} {front : List UInt8}
    {state : Nat × Bool} (continues : Continues order start front state)
    (placed : Placed) :
    Continues order start (front ++ placed.pbuf.payload)
      (addPbuf order state placed) := by
  have short : placed.pbuf.payload.length ≤ 0x20000 :=
    Nat.le_trans placed.pbuf.len_lt.le (by decide)
  have lane :
      (if state.2 = true then !order.high else order.high) =
        if front.length % 2 = 0 then order.high else !order.high := by
    rcases Nat.mod_two_eq_zero_or_one front.length with even | odd
    · simp [continues.swapped, even]
    · simp [continues.swapped, odd]
  have acc :
      foldU32t
          (addU32 state.1
            (lwipStandardChksum order placed.odd placed.pbuf.payload)) =
        carried 65535
          (turned state.2
            (start + byteSum order.high (front ++ placed.pbuf.payload))) := by
    have one := finish_lt
      (turned state.2 (start + byteSum order.high front))
    have other := finish_lt (byteSum order.high placed.pbuf.payload)
    rw [lwipStandardChksum_eq order _ short, continues.acc,
      addU32_of_lt (by omega), foldU32t_eq, fold_of_le (by omega),
      carried_carried_add (by decide), carried_add_carried (by decide),
      carried_turned_add, byteSum_append, lane, Nat.add_assoc]
  unfold Chksum.addPbuf
  rw [acc]
  rcases Nat.mod_two_eq_zero_or_one placed.pbuf.len with even | odd
  · have length : placed.pbuf.payload.length % 2 = 0 := even
    simp only [even, ne_eq, not_true_eq_false, if_false]
    refine ⟨?_, rfl⟩
    rw [continues.swapped, List.length_append, Nat.add_mod, length]
    simp
  · have length : placed.pbuf.payload.length % 2 = 1 := odd
    simp only [odd, ne_eq, one_ne_zero, not_false_eq_true, if_true,
      swap_turned]
    refine ⟨?_, rfl⟩
    rw [continues.swapped, List.length_append, Nat.add_mod, length]
    rcases Nat.mod_two_eq_zero_or_one front.length with before | before
    · simp [before]
    · simp [before]

theorem Continues.foldl
    {order : ByteOrder} {start : Nat} {front : List UInt8}
    {state : Nat × Bool} (continues : Continues order start front state)
    (pbufs : List Placed) :
    Continues order start
      (front ++ payloads (pbufs.map Placed.pbuf))
      (pbufs.foldl (Chksum.addPbuf order) state) := by
  induction pbufs generalizing front state with
  | nil => simpa using continues
  | cons placed rest induction =>
      have onward := induction (continues.addPbuf placed)
      simpa using onward

/-- The bytes of a chain are summed as if they were in one piece. -/
theorem sumPbufs_eq
    (order : ByteOrder) {start : Nat} (small : start ≤ 65535)
    (packet : Packet) :
    sumPbufs order start packet =
      carried 65535 (start + byteSum order.high packet.bytes) := by
  have begins : Continues order start [] (start, false) :=
    ⟨rfl, by simp [turned, carried_of_le small]⟩
  have ends := begins.foldl packet.pbufs
  simp only [List.nil_append] at ends
  unfold sumPbufs
  generalize packet.pbufs.foldl (addPbuf order) (start, false) = state
    at ends
  rcases state with ⟨acc, swapped⟩
  have sum := ends.acc
  cases swapped with
  | false => exact sum
  | true =>
      simp only at sum
      simp only [if_true, sum, swap_turned]
      rfl

/-! ## The pseudo header -/

/-- A word of an address is summed as its four bytes. -/
theorem addAddr_load32
    (order : ByteOrder) (acc : Nat) (a b c d : UInt8)
    (small : acc + 131070 < 2 ^ 32) :
    addAddr acc (load32 order a b c d) =
      acc + byteSum order.high [a, b, c, d] ∧
    byteSum order.high [a, b, c, d] ≤ 131070 := by
  have first := load16_lt order a b
  have second := load16_lt order c d
  have whole :
      byteSum order.high [a, b, c, d] =
        load16 order a b + load16 order c d := by
    rw [byteSum_pair, byteSum_pair, byteSum_nil, Nat.add_zero]
  have halves :
      load32 order a b c d % 65536 +
          load32 order a b c d / 65536 % 65536 =
        load16 order a b + load16 order c d := by
    cases order with
    | little =>
        rw [load32, Nat.add_mul_mod_self_left,
          Nat.add_mul_div_left _ _ (by decide),
          Nat.div_eq_of_lt (Nat.lt_succ_of_le first), Nat.zero_add,
          Nat.mod_eq_of_lt (Nat.lt_succ_of_le first),
          Nat.mod_eq_of_lt (Nat.lt_succ_of_le second)]
    | big =>
        rw [load32, Nat.mul_add_mod, Nat.mul_add_div (by decide),
          Nat.div_eq_of_lt (Nat.lt_succ_of_le second), Nat.add_zero,
          Nat.mod_eq_of_lt (Nat.lt_succ_of_le first),
          Nat.mod_eq_of_lt (Nat.lt_succ_of_le second), Nat.add_comm]
  refine ⟨?_, by omega⟩
  have low : addU32 acc (load32 order a b c d % 65536) =
      acc + load32 order a b c d % 65536 := addU32_of_lt (by omega)
  rw [addAddr, low, addU32_of_lt (by omega), whole, ← halves, Nat.add_assoc]

theorem exists_four {count : Nat} {bytes : List UInt8}
    (length : bytes.length = 4 * (count + 1)) :
    ∃ a b c d rest,
      bytes = [a, b, c, d] ++ rest ∧ rest.length = 4 * count := by
  have front : (bytes.take 4).length = 4 := by
    rw [List.length_take]
    omega
  rcases List.length_eq_four.mp front with ⟨a, b, c, d, first⟩
  refine ⟨a, b, c, d, bytes.drop 4, ?_, ?_⟩
  · rw [← first, List.take_append_drop]
  · rw [List.length_drop]
    omega

/-- Both addresses are summed one after the other, though taken in turn. -/
theorem addAddrs_eq
    (order : ByteOrder) (acc count : Nat) (src dest : List UInt8)
    (length : src.length = 4 * count) (same : dest.length = 4 * count)
    (small : acc + 262140 * count < 2 ^ 32) :
    addAddrs order acc src dest =
      acc + byteSum order.high src + byteSum order.high dest ∧
    byteSum order.high src + byteSum order.high dest ≤
      262140 * count := by
  induction count generalizing acc src dest with
  | zero =>
      have empty := List.length_eq_zero_iff.mp length
      have nothing := List.length_eq_zero_iff.mp same
      subst empty nothing
      simp [addAddrs]
  | succ count induction =>
      have flat : acc + 262140 * count + 262140 < 2 ^ 32 := by
        rw [Nat.mul_succ] at small
        rwa [Nat.add_assoc]
      rcases exists_four length with ⟨a, b, c, d, src, rfl, left⟩
      rcases exists_four same with ⟨e, f, g, h, dest, rfl, right⟩
      clear small
      have one := addAddr_load32 order acc a b c d (by omega)
      have two := addAddr_load32 order
        (addAddr acc (load32 order a b c d)) e f g h (by omega)
      have later := induction
        (addAddr (addAddr acc (load32 order a b c d))
          (load32 order e f g h)) src dest left right (by omega)
      have unfolded :
          addAddrs order acc ([a, b, c, d] ++ src)
              ([e, f, g, h] ++ dest) =
            addAddrs order
              (addAddr (addAddr acc (load32 order a b c d))
                (load32 order e f g h)) src dest := rfl
      rw [unfolded, byteSum_append, byteSum_append]
      simp only [List.length_cons, List.length_nil, Nat.zero_add,
        Nat.reduceAdd, Nat.reduceMod, if_true]
      rw [Nat.mul_succ]
      omega

theorem byteSum_append_even
    (high : Bool) {front : List UInt8} (even : front.length % 2 = 0)
    (back : List UInt8) :
    byteSum high (front ++ back) = byteSum high front + byteSum high back := by
  rw [byteSum_append, if_pos even]

/-- A number in network order is summed as its two bytes. -/
theorem htons_eq (order : ByteOrder) {value : Nat} (small : value < 65536) :
    htons order value =
      byteSum order.high [(wire16 value).1, (wire16 value).2] ∧
    htons order value ≤ 65535 := by
  have upper : value / 256 < 256 := Nat.div_lt_of_lt_mul small
  have lower := Nat.mod_lt value (show 0 < 256 by decide)
  have whole := Nat.div_add_mod value 256
  cases order <;>
    simp only [htons, swapBytesInWord, wire16, store16, byteSum, digits,
      laneSum, ByteOrder.high, List.map_cons, List.map_nil,
      UInt8.toNat_ofNat', Nat.mod_eq_of_lt upper, Nat.mod_mod] <;>
    omega

/-- The protocol, alone or in front of the length, adds its byte. -/
theorem htons_proto (order : ByteOrder) (proto : UInt8) :
    htons order proto.toNat = byteSum order.high [0, proto] := by
  have small := proto.toNat_lt
  cases order <;>
    simp only [htons, swapBytesInWord, byteSum, digits, laneSum,
      ByteOrder.high, List.map_cons, List.map_nil, UInt8.toNat_zero] <;>
    omega

theorem inetCksumPseudoBase_eq
    (order : ByteOrder) (packet : Packet) (proto : UInt8)
    {protoLen : Nat} (small : protoLen < 65536) (sum : Nat) :
    inetCksumPseudoBase order packet proto protoLen (carried 65535 sum) =
      65535 -
        carried 65535
          (sum + byteSum order.high [0, proto] +
            byteSum order.high [(wire16 protoLen).1, (wire16 protoLen).2] +
            byteSum order.high packet.bytes) := by
  have start := carried_le (show 0 < 65535 by decide) sum
  have protocol := htons_eq order
    (Nat.lt_trans proto.toNat_lt (show 2 ^ 8 < 65536 by decide))
  have length := htons_eq order small
  have middle := finish_lt (sum + byteSum order.high packet.bytes)
  unfold inetCksumPseudoBase
  simp only [sumPbufs_eq order start packet,
    carried_carried_add (show 0 < 65535 by decide)]
  have withProto :
      addU32 (carried 65535 (sum + byteSum order.high packet.bytes))
          (htons order proto.toNat) =
        carried 65535 (sum + byteSum order.high packet.bytes) +
          htons order proto.toNat := addU32_of_lt (by omega)
  rw [withProto, addU32_of_lt (by omega), finish _ (by omega),
    Nat.mod_eq_of_lt (finish_lt _), Nat.add_assoc,
    carried_carried_add (by decide), htons_proto, length.1]
  congr 2
  omega

/-- What is checksummed by `ip_chksum_pseudo`. -/
def covered (ends : Ends) (proto : UInt8) (packet : Packet)
    (protoLen : Nat) : List UInt8 :=
  pseudoHeader proto protoLen ends ++ packet.bytes

theorem ipChksumPseudo_eq
    (order : ByteOrder) (packet : Packet) (proto : UInt8)
    {protoLen : Nat} (small : protoLen < 65536) (ends : Ends) :
    ipChksumPseudo order packet proto protoLen ends =
      65535 -
        carried 65535
          (byteSum order.high (covered ends proto packet protoLen)) := by
  cases ends with
  | v4 src dest =>
      have addrs := addAddrs_eq order 0 1 src.toList dest.toList
        (by simp) (by simp) (by decide)
      simp only [ipChksumPseudo, inetChksumPseudo]
      rw [finish _ (by omega), inetCksumPseudoBase_eq order _ _ small,
        addrs.1]
      congr 2
      rw [covered, pseudoHeader,
        byteSum_append_even _ (by simp), byteSum_append_even _ (by simp),
        byteSum_append_even _ (by simp), byteSum_four]
      omega
  | v6 src dest =>
      have addrs := addAddrs_eq order 0 4 src.toList dest.toList
        (by simp) (by simp) (by decide)
      simp only [ipChksumPseudo, ip6ChksumPseudo]
      rw [finish _ (by omega), inetCksumPseudoBase_eq order _ _ small,
        addrs.1]
      congr 2
      rw [covered, pseudoHeader,
        byteSum_append_even _ (by simp), byteSum_append_even _ (by simp),
        byteSum_append_even _ (by simp), byteSum_append_even _ (by simp),
        byteSum_four, byteSum_four, byteSum_zeros]
      omega

/-! ## What is stored is the checksum of the text -/

theorem halves_of (upper : Nat) {lower : Nat} (small : lower < 256) :
    (256 * upper + lower) / 256 = upper ∧
      (256 * upper + lower) % 256 = lower := by
  rw [Nat.mul_add_div (by decide), Nat.div_eq_of_lt small, Nat.add_zero,
    Nat.mul_add_mod, Nat.mod_eq_of_lt small]
  exact ⟨rfl, rfl⟩

/-- The halves of a complement are the complements of the halves. -/
theorem complement_swap {word : Nat} (small : word ≤ 65535) :
    (65535 - swap 256 word) % 256 = (65535 - word) / 256 ∧
      (65535 - swap 256 word) / 256 = (65535 - word) % 256 := by
  have upper : word / 256 < 256 := Nat.div_lt_of_lt_mul (by omega)
  have lower := Nat.mod_lt word (show 0 < 256 by decide)
  have whole := Nat.div_add_mod word 256
  have first :
      65535 - swap 256 word =
        256 * (255 - word % 256) + (255 - word / 256) := by
    unfold swap
    omega
  have second :
      65535 - word = 256 * (255 - word / 256) + (255 - word % 256) := by
    omega
  have mirrored := halves_of (255 - word % 256)
    (show 255 - word / 256 < 256 by omega)
  have plain := halves_of (255 - word / 256)
    (show 255 - word % 256 < 256 by omega)
  rw [first, second]
  exact ⟨mirrored.2.trans plain.1.symm, mirrored.1.trans plain.2.symm⟩

/-- The bytes of a stored complement do not depend on the host. -/
theorem store16_complement (order : ByteOrder) (bytes : List UInt8) :
    store16 order (65535 - carried 65535 (byteSum order.high bytes)) =
      wire16 (checksum bytes) := by
  rw [checksum, wordSum_eq_laneSum]
  cases order with
  | big => rfl
  | little =>
      have small := carried_le (show 0 < 65535 by decide)
        (byteSum true bytes)
      have swapped :
          carried 65535 (byteSum ByteOrder.little.high bytes) =
            swap 256 (carried 65535 (byteSum true bytes)) := by
        rw [← swapBytesInWord_eq small, swapBytesInWord_eq_carried small,
          carried_mul_carried (by decide), carried_mul_byteSum]
        rfl
      have halves := complement_swap small
      simp only [swapped, store16, wire16, halves.1, halves.2]
      rfl

/--
On every host, for every alignment of the pbufs and every division of the
bytes into pbufs: the bytes which `ip_chksum_pseudo`, `inet_chksum_pbuf` and
`inet_chksum` have stored are the checksum of the pseudo header and the whole
packet, of the whole packet, and of the data.  No carry is lost.
-/
theorem chksum_of_whole_text (order : ByteOrder) :
    (∀ (packet : Packet) (proto : UInt8) (protoLen : UInt16) (ends : Ends),
      store16 order
          (ipChksumPseudo order packet proto protoLen.toNat ends) =
        wire16
          (checksum
            (pseudoHeader proto protoLen.toNat ends ++ packet.bytes))) ∧
    (∀ packet : Packet,
      store16 order (inetChksumPbuf order packet) =
        wire16 (checksum packet.bytes)) ∧
    (∀ (odd : Bool) (data : List UInt8), data.length ≤ 0x20000 →
      store16 order (inetChksum order odd data) =
        wire16 (checksum data)) := by
  refine ⟨?_, ?_, ?_⟩
  · intro packet proto protoLen ends
    rw [ipChksumPseudo_eq order packet proto protoLen.toNat_lt ends]
    exact store16_complement order _
  · intro packet
    rw [inetChksumPbuf, sumPbufs_eq order (Nat.zero_le _), Nat.zero_add,
      Nat.mod_eq_of_lt (finish_lt _)]
    exact store16_complement order _
  · intro odd data short
    rw [inetChksum, lwipStandardChksum_eq order odd short]
    exact store16_complement order _

/-- Two pbufs of odd length, at an odd and at an even address. -/
def samplePacket : Packet where
  pbufs :=
    [{ odd := true
       pbuf := { payload := [1, 2, 3], totLen := 4, len_lt := by decide } },
      { odd := false
        pbuf := { payload := [4], totLen := 1, len_lt := by decide } }]
  sound := ⟨rfl, rfl, trivial⟩

theorem chksum_of_whole_text_sample :
    store16 .little (inetChksum .little true [1, 2, 3, 4, 5]) =
      (0xf6, 0xf9) ∧
    store16 .little (inetChksumPbuf .little samplePacket) =
      (0xfb, 0xf9) := by
  have whole := chksum_of_whole_text .little
  refine ⟨(whole.2.2 true [1, 2, 3, 4, 5] (by decide)).trans ?_,
    (whole.2.1 samplePacket).trans ?_⟩
  · decide +kernel
  · decide +kernel

end Nsproxy.Lwip.Chksum
