import Nsproxy.Lwip.Chksum

/-!
# Checksums which are filled in and checked

`tcp_output_segment`, `udp_sendto_if_src_chksum` and `ip4_output_if_opt_src`
fill in the checksum of a header.  `tcp_input`, `udp_input` and `ip4_input`
drop what does not check.  The two sides need not agree about anything but
the bytes: the receiver may be another host, and have the packet in other
pbufs.

A UDP header whose checksum is zero has none, so a checksum which comes out
as zero is sent as 0xffff.  The header of IPv4 is summed while it is written.
-/

namespace Nsproxy.Lwip.ChksumChecks

open Nsproxy.Lib.OnesComplement
open Nsproxy.Lwip.Buffers
open Nsproxy.Lwip.Chksum

/-! ## Fields of the first pbuf -/

/-- Two bytes of a pbuf are overwritten. -/
def overwritePbuf (pbuf : Pbuf) (offset : Nat) (pair : UInt8 × UInt8) :
    Pbuf where
  payload := (pbuf.payload.set offset pair.1).set (offset + 1) pair.2
  totLen := pbuf.totLen
  len_lt := by
    simp only [List.length_set]
    exact pbuf.len_lt

def overwriteFirst (offset : Nat) (pair : UInt8 × UInt8) :
    List Placed → List Placed
  | [] => []
  | first :: rest =>
      { first with pbuf := overwritePbuf first.pbuf offset pair } :: rest

theorem totLensSound_overwriteFirst
    {pbufs : List Placed} (sound : TotLensSound (pbufs.map Placed.pbuf))
    (offset : Nat) (pair : UInt8 × UInt8) :
    TotLensSound ((overwriteFirst offset pair pbufs).map Placed.pbuf) := by
  cases pbufs with
  | nil => exact sound
  | cons first rest =>
      refine ⟨?_, sound.2⟩
      have total := sound.1
      simpa [overwritePbuf] using total

/-- A 16-bit field of the header is written. -/
def setField (packet : Packet) (offset : Nat) (pair : UInt8 × UInt8) :
    Packet where
  pbufs := overwriteFirst offset pair packet.pbufs
  sound := totLensSound_overwriteFirst packet.sound offset pair

/-- A 16-bit field of the header is read. -/
def getField (order : ByteOrder) (packet : Packet) (offset : Nat) : Nat :=
  match packet.pbufs with
  | [] => 0
  | first :: _ =>
      load16 order (first.pbuf.payload.getD offset 0)
        (first.pbuf.payload.getD (offset + 1) 0)

/-! ## TCP -/

/-- `IP_PROTO_TCP` and `TCP_HLEN`. -/
def ipProtoTcp : UInt8 := 6
def tcpHlen : Nat := 20

/-- `tcp_output_segment`: `chksum` is cleared, then filled in. -/
def tcpOutputChksum (order : ByteOrder) (ends : Ends) (packet : Packet) :
    Packet :=
  let cleared := setField packet 16 (store16 order 0)
  setField cleared 16
    (store16 order
      (ipChksumPseudo order cleared ipProtoTcp cleared.totLen ends))

/-- `tcp_input` drops short packets, and those which do not check. -/
def tcpInputChksum (order : ByteOrder) (ends : Ends) (packet : Packet) :
    Bool :=
  decide (tcpHlen ≤ packet.firstLen) &&
    decide
      (ipChksumPseudo order packet ipProtoTcp packet.totLen ends = 0)

/-! ## UDP -/

/-- `IP_PROTO_UDP` and `UDP_HLEN`. -/
def ipProtoUdp : UInt8 := 17
def udpHlen : Nat := 8

def Ends.isV6 : Ends → Bool
  | .v4 _ _ => false
  | .v6 _ _ => true

/--
`udp_sendto_if_src_chksum`; `nochksum` is `UDP_FLAGS_NOCHKSUM` of the pcb.
-/
def udpOutputChksum
    (order : ByteOrder) (ends : Ends) (nochksum : Bool) (packet : Packet) :
    Packet :=
  let cleared := setField packet 6 (store16 order 0)
  if Ends.isV6 ends || !nochksum then
    let udpchksum :=
      ipChksumPseudo order cleared ipProtoUdp cleared.totLen ends
    setField cleared 6
      (store16 order (if udpchksum = 0 then 65535 else udpchksum))
  else
    cleared

/-- `udp_input` drops short packets, and those which do not check. -/
def udpInputChksum (order : ByteOrder) (ends : Ends) (packet : Packet) :
    Bool :=
  decide (udpHlen ≤ packet.firstLen) &&
    (decide (getField order packet 6 = 0) ||
      decide
        (ipChksumPseudo order packet ipProtoUdp packet.totLen ends = 0))

/-! ## What a field is in the text -/

theorem totLen_eq (packet : Packet) :
    packet.totLen = packet.bytes.length % 65536 := by
  rcases packet with ⟨pbufs, sound⟩
  cases pbufs with
  | nil => rfl
  | cons first rest => exact sound.1

theorem totLen_lt (packet : Packet) : packet.totLen < 65536 := by
  rw [totLen_eq]
  exact Nat.mod_lt _ (by decide)

theorem totLen_setField
    (packet : Packet) (offset : Nat) (pair : UInt8 × UInt8) :
    (setField packet offset pair).totLen = packet.totLen := by
  rcases packet with ⟨pbufs, sound⟩
  cases pbufs <;> rfl

/-- Only what is written last into a field stays. -/
theorem setField_setField
    (packet : Packet) (offset : Nat) (first second : UInt8 × UInt8) :
    setField (setField packet offset first) offset second =
      setField packet offset second := by
  rcases packet with ⟨pbufs, sound⟩
  cases pbufs with
  | nil => rfl
  | cons head rest =>
      have twice :
          overwritePbuf (overwritePbuf head.pbuf offset first) offset
              second =
            overwritePbuf head.pbuf offset second := by
        simp only [overwritePbuf, Pbuf.mk.injEq, and_true]
        rw [List.set_comm first.2 second.1 (Nat.succ_ne_self offset),
          List.set_set, List.set_set]
      simp only [setField, overwriteFirst, twice]

theorem set_pair (front : List UInt8) (x y first second : UInt8)
    (back : List UInt8) :
    ((front ++ [x, y] ++ back).set front.length first).set
        (front.length + 1) second =
      front ++ [first, second] ++ back := by
  induction front with
  | nil => rfl
  | cons byte rest induction =>
      simp only [List.cons_append, List.length_cons, List.set_cons_succ,
        induction]

theorem exists_pair {bytes : List UInt8} {offset : Nat}
    (held : offset + 2 ≤ bytes.length) :
    ∃ front x y back,
      front.length = offset ∧ bytes = front ++ [x, y] ++ back := by
  have front : (bytes.take offset).length = offset := by
    rw [List.length_take]
    omega
  have pair : ((bytes.drop offset).take 2).length = 2 := by
    rw [List.length_take, List.length_drop]
    omega
  rcases List.length_eq_two.mp pair with ⟨x, y, both⟩
  refine
    ⟨bytes.take offset, x, y, (bytes.drop offset).drop 2, front, ?_⟩
  rw [← both, List.append_assoc, List.take_append_drop,
    List.take_append_drop]

/-- The bytes around a field, which stay when it is written. -/
theorem setField_bytes
    {packet : Packet} {offset : Nat}
    (held : offset + 2 ≤ packet.firstLen) :
    ∃ front back,
      front.length = offset ∧
        (∃ x y, packet.bytes = front ++ [x, y] ++ back) ∧
        ∀ pair : UInt8 × UInt8,
          (setField packet offset pair).bytes =
            front ++ [pair.1, pair.2] ++ back := by
  rcases packet with ⟨pbufs, sound⟩
  cases pbufs with
  | nil => simp [Packet.firstLen] at held
  | cons first rest =>
      rcases exists_pair held with ⟨front, x, y, back, rfl, split⟩
      refine
        ⟨front, back ++ payloads (rest.map Placed.pbuf), rfl,
          ⟨x, y, ?_⟩, ?_⟩
      · simp [Packet.bytes, split]
      · intro pair
        have written := set_pair front x y pair.1 pair.2 back
        simp only [setField, overwriteFirst, overwritePbuf, Packet.bytes,
          List.map_cons, payloads_cons]
        rw [split, written, List.append_assoc]

/-! ## Checking -/

/-- The number which two bytes are in network order. -/
def word (first second : UInt8) : Nat :=
  256 * first.toNat + second.toNat

theorem checksum_eq (bytes : List UInt8) :
    checksum bytes = 65535 - carried 65535 (byteSum true bytes) := by
  rw [checksum, wordSum_eq_laneSum]
  rfl

theorem checksum_lt (bytes : List UInt8) : checksum bytes < 65536 :=
  Nat.lt_succ_of_le (Nat.sub_le _ _)

/-- A word within a text, behind whole words. -/
theorem byteSum_word
    {front : List UInt8} (even : front.length % 2 = 0)
    (first second : UInt8) (back : List UInt8) :
    byteSum true (front ++ [first, second] ++ back) =
      byteSum true (front ++ [0, 0] ++ back) + word first second := by
  simp only [List.append_assoc, List.cons_append, List.nil_append]
  rw [byteSum_append_even _ even, byteSum_append_even _ even]
  have written := byteSum_pair .big first second back
  have cleared := byteSum_pair .big 0 0 back
  simp only [ByteOrder.high, load16, UInt8.toNat_zero] at written cleared
  rw [written, cleared, word]
  omega

theorem word_le (first second : UInt8) : word first second ≤ 65535 := by
  have low := first.toNat_lt
  have high := second.toNat_lt
  unfold word
  omega

/-- What the complement of the rest is written into checks. -/
theorem checksum_filled
    {front : List UInt8} (even : front.length % 2 = 0)
    {first second : UInt8} {back : List UInt8}
    (filled :
      word first second = checksum (front ++ [0, 0] ++ back) ∨
        checksum (front ++ [0, 0] ++ back) = 0 ∧
          word first second = 65535) :
    checksum (front ++ [first, second] ++ back) = 0 := by
  rw [checksum_eq, byteSum_word even]
  have small := carried_le (show 0 < 65535 by decide)
    (byteSum true (front ++ [0, 0] ++ back))
  rcases filled with complement | ⟨zero, ones⟩
  · rw [complement, checksum_eq, carried_add_complement (by decide)]
  · rw [checksum_eq] at zero
    have full :
        carried 65535 (byteSum true (front ++ [0, 0] ++ back)) = 65535 := by
      omega
    rw [ones, ← carried_carried_add (by decide), full]
    decide

/-- Of two texts which differ in one word, both check only by a fluke. -/
theorem checksum_detects
    {front : List UInt8} (even : front.length % 2 = 0)
    {first second other another : UInt8} {back : List UInt8}
    (one : checksum (front ++ [first, second] ++ back) = 0)
    (two : checksum (front ++ [other, another] ++ back) = 0) :
    word first second = word other another ∨
      word first second = 0 ∧ word other another = 65535 ∨
        word first second = 65535 ∧ word other another = 0 := by
  rw [checksum_eq, byteSum_word even] at one two
  have small := carried_le (show 0 < 65535 by decide)
    (byteSum true (front ++ [0, 0] ++ back) + word first second)
  have little := carried_le (show 0 < 65535 by decide)
    (byteSum true (front ++ [0, 0] ++ back) + word other another)
  have same :
      carried 65535
          (byteSum true (front ++ [0, 0] ++ back) + word first second) =
        carried 65535
          (byteSum true (front ++ [0, 0] ++ back) + word other another) := by
    omega
  have equal := (carried_modEq 65535
    (byteSum true (front ++ [0, 0] ++ back) + word first second)).symm
  rw [same] at equal
  have words :=
    Nat.ModEq.add_left_cancel' _ (equal.trans (carried_modEq 65535 _))
  have bound := word_le first second
  have limit := word_le other another
  unfold Nat.ModEq at words
  omega

/-- A sum which fills the word fills it from the other half as well. -/
theorem full_of_full
    {high : Bool} {bytes : List UInt8}
    (full : carried 65535 (byteSum high bytes) = 65535) :
    carried 65535 (byteSum (!high) bytes) = 65535 := by
  rw [← carried_mul_byteSum, ← carried_mul_carried (by decide), full]
  decide

/-- What every host finds when it checks a packet. -/
theorem ipChksumPseudo_eq_zero
    (order : ByteOrder) (packet : Packet) (proto : UInt8) (ends : Ends) :
    ipChksumPseudo order packet proto packet.totLen ends = 0 ↔
      checksum
        (pseudoHeader proto (packet.bytes.length % 65536) ends ++
          packet.bytes) = 0 := by
  have total := totLen_lt packet
  rw [ipChksumPseudo_eq order packet proto total ends, covered,
    totLen_eq packet, checksum_eq]
  have here := carried_le (show 0 < 65535 by decide)
    (byteSum order.high
      (pseudoHeader proto (packet.bytes.length % 65536) ends ++
        packet.bytes))
  have wire := carried_le (show 0 < 65535 by decide)
    (byteSum true
      (pseudoHeader proto (packet.bytes.length % 65536) ends ++
        packet.bytes))
  cases order with
  | big => rfl
  | little =>
      refine ⟨?_, ?_⟩
      · intro zero
        have full := full_of_full
          (Nat.le_antisymm here (Nat.sub_eq_zero_iff_le.mp zero))
        simp only [ByteOrder.high, Bool.not_false] at full
        rw [full]
      · intro zero
        have full := full_of_full
          (Nat.le_antisymm wire (Nat.sub_eq_zero_iff_le.mp zero))
        simp only [ByteOrder.high] at full ⊢
        rw [Bool.not_true] at full
        rw [full]

theorem pseudoHeader_even (proto : UInt8) (protoLen : Nat) (ends : Ends) :
    (pseudoHeader proto protoLen ends).length % 2 = 0 := by
  cases ends <;> simp [pseudoHeader]

/-! ## Filling in -/

theorem word_wire16 {value : Nat} (small : value < 65536) :
    word (wire16 value).1 (wire16 value).2 = value := by
  have upper : value / 256 < 256 := Nat.div_lt_of_lt_mul small
  have whole := Nat.div_add_mod value 256
  simp only [word, wire16, store16, UInt8.toNat_ofNat',
    Nat.mod_eq_of_lt upper, Nat.mod_mod]
  omega

theorem store16_zero (order : ByteOrder) : store16 order 0 = (0, 0) := by
  cases order <;> rfl

theorem store16_ones (order : ByteOrder) :
    store16 order 65535 = wire16 65535 := by
  cases order <;> rfl

/-- What a filled field makes of the bytes of a packet. -/
theorem checks_of_filled
    {order : ByteOrder} {ends : Ends} {proto : UInt8} {offset : Nat}
    {sent received : Packet}
    (held : offset + 2 ≤ sent.firstLen) (even : offset % 2 = 0)
    {value : Nat}
    (filled :
      value =
          ipChksumPseudo order (setField sent offset (store16 order 0))
            proto sent.totLen ends ∨
        ipChksumPseudo order (setField sent offset (store16 order 0))
            proto sent.totLen ends = 0 ∧ value = 65535)
    (same :
      received.bytes =
        (setField sent offset (store16 order value)).bytes)
    (other : ByteOrder) :
    ipChksumPseudo other received proto received.totLen ends = 0 := by
  rcases setField_bytes held with ⟨front, back, length, _, written⟩
  have cleared := written (store16 order 0)
  rw [store16_zero] at cleared
  rw [written] at same
  have total :
      sent.totLen = (setField sent offset (store16 order 0)).totLen :=
    (totLen_setField sent offset _).symm
  have size :
      received.bytes.length % 65536 = sent.totLen := by
    rw [total, totLen_eq, same, store16_zero, cleared]
    simp
  have stored := store16_complement order
    (pseudoHeader proto sent.totLen ends ++ (front ++ [0, 0] ++ back))
  have lead :
      (pseudoHeader proto sent.totLen ends ++ front).length % 2 = 0 := by
    have header := pseudoHeader_even proto sent.totLen ends
    rw [List.length_append, length]
    omega
  rw [ipChksumPseudo_eq_zero, size, same, ← List.append_assoc,
    ← List.append_assoc]
  apply checksum_filled lead
  rcases filled with complement | ⟨zero, ones⟩
  · left
    rw [ipChksumPseudo_eq order _ proto (totLen_lt sent) ends, covered,
      store16_zero, cleared] at complement
    rw [← complement] at stored
    rw [stored, word_wire16 (checksum_lt _), ← List.append_assoc,
      ← List.append_assoc]
  · right
    rw [total, ipChksumPseudo_eq_zero, ← totLen_eq, ← total,
      store16_zero, cleared, ← List.append_assoc,
      ← List.append_assoc] at zero
    refine ⟨zero, ?_⟩
    rw [ones, store16_ones, word_wire16 (by decide)]

/-! ## The header of IPv4 -/

/-- What `ip4_output_if_opt_src` writes a header from, without options. -/
structure Ip4Fields where
  tos : UInt8
  totLen : UInt16
  id : UInt16
  ttl : UInt8
  proto : UInt8
  src : Vector UInt8 4
  dest : Vector UInt8 4

/-- The header, with a checksum. -/
def Ip4Fields.header (fields : Ip4Fields) (chksum : UInt8 × UInt8) :
    List UInt8 :=
  [0x45, fields.tos, (wire16 fields.totLen.toNat).1,
    (wire16 fields.totLen.toNat).2, (wire16 fields.id.toNat).1,
    (wire16 fields.id.toNat).2, 0, 0, fields.ttl, fields.proto] ++
    [chksum.1, chksum.2] ++
    (fields.src.toList ++ fields.dest.toList)

/-- The low and the high half of an address in the sum of the header. -/
def addIp4Addr (order : ByteOrder) (sum : Nat) (addr : Vector UInt8 4) :
    Nat :=
  addAddr sum
    (load32 order addr[0] addr[1] addr[2] addr[3])

/-- `chk_sum`, as it is while the header is written. -/
def inlineSum (order : ByteOrder) (fields : Ip4Fields) : Nat :=
  let sum := addU32 0 (load16 order fields.ttl fields.proto)
  let sum := addIp4Addr order sum fields.dest
  let sum := addU32 sum (load16 order 0x45 fields.tos)
  let sum := addU32 sum (htons order fields.totLen.toNat)
  let sum := addU32 sum (htons order fields.id.toNat)
  addIp4Addr order sum fields.src

/-- The header which `ip4_output_if_opt_src` has written at the end. -/
def ip4OutputHeader (order : ByteOrder) (fields : Ip4Fields) : List UInt8 :=
  let sum := foldU32t (inlineSum order fields)
  let sum := addU32 (sum / 65536) sum
  fields.header (store16 order (65535 - sum % 65536))

/--
The checks which `ip4_input` makes of a header before it reads on: the packet
is trimmed to the length which the header says first.
-/
def ip4InputHeader
    (order : ByteOrder) (odd : Bool) (payload : List UInt8) (totLen : Nat) :
    Bool :=
  let first := (payload.getD 0 0).toNat
  let headerLen := first % 16 * 4
  let ipLen :=
    htons order (load16 order (payload.getD 2 0) (payload.getD 3 0))
  let trimmed := min totLen ipLen
  let held := min payload.length trimmed
  decide (first / 16 = 4) &&
    !decide (headerLen > held ∨ ipLen > trimmed ∨ headerLen < 20) &&
    decide (inetChksum order odd (payload.take headerLen) = 0)

theorem toList_eq (addr : Vector UInt8 4) :
    addr.toList = [addr[0], addr[1], addr[2], addr[3]] := by
  rcases addr with ⟨⟨bytes⟩, size⟩
  rcases List.length_eq_four.mp size with ⟨a, b, c, d, rfl⟩
  rfl

theorem addIp4Addr_eq
    (order : ByteOrder) {sum : Nat} (small : sum + 131070 < 2 ^ 32)
    (addr : Vector UInt8 4) :
    addIp4Addr order sum addr = sum + byteSum order.high addr.toList ∧
      byteSum order.high addr.toList ≤ 131070 := by
  rw [toList_eq]
  exact addAddr_load32 order sum _ _ _ _ small

/-- The sum which is made on the way is the sum of what was written. -/
theorem inlineSum_eq (order : ByteOrder) (fields : Ip4Fields) :
    inlineSum order fields = byteSum order.high (fields.header (0, 0)) ∧
      inlineSum order fields ≤ 589815 := by
  have first := load16_lt order fields.ttl fields.proto
  have second := load16_lt order 0x45 fields.tos
  have length := htons_eq order fields.totLen.toNat_lt
  have ident := htons_eq order fields.id.toNat_lt
  have start :
      addU32 0 (load16 order fields.ttl fields.proto) =
        load16 order fields.ttl fields.proto := by
    rw [addU32_of_lt (by omega), Nat.zero_add]
  have dest := addIp4Addr_eq order
    (show load16 order fields.ttl fields.proto + 131070 < 2 ^ 32 by omega)
    fields.dest
  have two :=
    addU32_of_lt
      (show load16 order fields.ttl fields.proto +
        byteSum order.high fields.dest.toList +
          load16 order 0x45 fields.tos < 2 ^ 32 by omega)
  have three :=
    addU32_of_lt
      (show load16 order fields.ttl fields.proto +
        byteSum order.high fields.dest.toList +
          load16 order 0x45 fields.tos +
            htons order fields.totLen.toNat < 2 ^ 32 by omega)
  have four :=
    addU32_of_lt
      (show load16 order fields.ttl fields.proto +
        byteSum order.high fields.dest.toList +
          load16 order 0x45 fields.tos +
            htons order fields.totLen.toNat +
              htons order fields.id.toNat < 2 ^ 32 by omega)
  have src := addIp4Addr_eq order
    (show load16 order fields.ttl fields.proto +
        byteSum order.high fields.dest.toList +
          load16 order 0x45 fields.tos +
            htons order fields.totLen.toNat +
              htons order fields.id.toNat + 131070 < 2 ^ 32 by omega)
    fields.src
  have whole :
      inlineSum order fields =
        load16 order fields.ttl fields.proto +
          byteSum order.high fields.dest.toList +
            load16 order 0x45 fields.tos +
              htons order fields.totLen.toNat +
                htons order fields.id.toNat +
                  byteSum order.high fields.src.toList := by
    simp only [inlineSum, start, dest.1, two, three, four, src.1]
  refine ⟨?_, by omega⟩
  rw [whole, length.1, ident.1, Ip4Fields.header,
    byteSum_append_even _ (by simp), byteSum_append_even _ (by simp),
    byteSum_append_even _ (by simp)]
  simp only [byteSum_pair, byteSum_nil]
  have nothing : load16 order 0 0 = 0 := by
    cases order <;> rfl
  rw [nothing]
  omega

/-- The second fold leaves its carry to the truncation. -/
theorem inlineSum_folded {sum : Nat} (small : sum ≤ 589815) :
    addU32 (foldU32t sum / 65536) (foldU32t sum) % 65536 =
      carried 65535 sum := by
  have folded : foldU32t sum ≤ 65543 := by
    have high : sum / 65536 ≤ 8 := by omega
    have low := Nat.mod_lt sum (show 0 < 65536 by decide)
    unfold foldU32t
    omega
  have same : carried 65535 (foldU32t sum) = carried 65535 sum :=
    carried_fold (by decide) sum
  rw [← same, ← fold_of_le (by omega), ← foldU32t_eq,
    addU32_of_lt (by omega)]
  generalize foldU32t sum = rest at folded
  unfold foldU32t
  rcases Nat.lt_or_ge rest 65536 with below | above
  · omega
  · omega

/-- A header which was written checks, whoever reads it. -/
theorem inetChksum_header
    (order other : ByteOrder) (odd : Bool) (fields : Ip4Fields) :
    inetChksum other odd (ip4OutputHeader order fields) = 0 := by
  have sum := inlineSum_eq order fields
  have stored := store16_complement order (fields.header (0, 0))
  rw [← sum.1, ← inlineSum_folded sum.2] at stored
  have short :
      (ip4OutputHeader order fields).length = 20 := by
    simp [ip4OutputHeader, Ip4Fields.header]
  have checks : checksum (ip4OutputHeader order fields) = 0 := by
    unfold ip4OutputHeader
    simp only [stored]
    unfold Ip4Fields.header
    apply checksum_filled (by simp)
    left
    rw [word_wire16 (checksum_lt _)]
  rw [inetChksum, lwipStandardChksum_eq other odd (by omega)]
  rw [checksum_eq] at checks
  have wire := carried_le (show 0 < 65535 by decide)
    (byteSum true (ip4OutputHeader order fields))
  cases other with
  | big => exact checks
  | little =>
      have full := full_of_full
        (Nat.le_antisymm wire (Nat.sub_eq_zero_iff_le.mp checks))
      simp only [ByteOrder.high]
      rw [Bool.not_true] at full
      rw [full]

theorem htons_load16 (order : ByteOrder) {value : Nat}
    (small : value < 65536) :
    htons order
        (load16 order (wire16 value).1 (wire16 value).2) = value := by
  have upper : value / 256 < 256 := Nat.div_lt_of_lt_mul small
  have whole := Nat.div_add_mod value 256
  cases order with
  | big =>
      simp only [htons, load16, wire16, store16, UInt8.toNat_ofNat',
        Nat.mod_eq_of_lt upper, Nat.mod_mod, Nat.reducePow]
      omega
  | little =>
      simp only [htons, load16, wire16, store16, UInt8.toNat_ofNat',
        Nat.mod_eq_of_lt upper, Nat.mod_mod, Nat.reducePow,
        swapBytesInWord, Nat.add_mul_mod_self_left,
        Nat.add_mul_div_left _ _ (show 0 < 256 by decide),
        Nat.div_eq_of_lt upper, Nat.zero_add]
      omega

theorem ip4InputHeader_output
    (order other : ByteOrder) (odd : Bool) (fields : Ip4Fields)
    (data : List UInt8) {totLen : Nat}
    (least : 20 ≤ fields.totLen.toNat)
    (most : fields.totLen.toNat ≤ totLen) :
    ip4InputHeader other odd (ip4OutputHeader order fields ++ data)
      totLen = true := by
  have length : (ip4OutputHeader order fields).length = 20 := by
    simp [ip4OutputHeader, Ip4Fields.header]
  have checks := inetChksum_header order other odd fields
  have said :
      htons other
          (load16 other
            ((ip4OutputHeader order fields ++ data).getD 2 0)
            ((ip4OutputHeader order fields ++ data).getD 3 0)) =
        fields.totLen.toNat :=
    htons_load16 other fields.totLen.toNat_lt
  have first :
      ((ip4OutputHeader order fields ++ data).getD 0 0).toNat = 69 := rfl
  have front :
      (ip4OutputHeader order fields ++ data).take 20 =
        ip4OutputHeader order fields := by
    rw [← length]
    exact List.take_left
  simp only [ip4InputHeader, said, first, List.length_append, length,
    Nat.reduceMod, Nat.reduceMul, Nat.reduceDiv, front, checks,
    decide_true, Bool.and_true, Bool.true_and, Bool.not_eq_true',
    decide_eq_false_iff_not]
  omega

/-! ## Both sides -/

/-- A field of the header is where it is in the bytes. -/
theorem getField_eq
    (order : ByteOrder) {packet : Packet} {front back : List UInt8}
    {x y : UInt8} (held : front.length + 2 ≤ packet.firstLen)
    (bytes : packet.bytes = front ++ [x, y] ++ back) :
    getField order packet front.length = load16 order x y := by
  rcases packet with ⟨pbufs, sound⟩
  cases pbufs with
  | nil => simp [Packet.firstLen] at held
  | cons first rest =>
      rcases exists_pair held with ⟨lead, a, b, tail, size, split⟩
      have joined :
          lead ++ ([a, b] ++ (tail ++ payloads (rest.map Placed.pbuf))) =
            front ++ ([x, y] ++ back) := by
        simpa [Packet.bytes, split] using bytes
      rcases List.append_inj joined size with ⟨rfl, pair⟩
      simp only [List.cons_append, List.nil_append, List.cons.injEq] at pair
      rcases pair with ⟨rfl, rfl, _⟩
      simp [getField, split]

theorem load16_eq_zero (order : ByteOrder) (first second : UInt8) :
    load16 order first second = 0 ↔ word first second = 0 := by
  cases order with
  | little =>
      simp only [load16, word]
      omega
  | big => rfl

theorem word_store16_eq_zero
    (order : ByteOrder) {value : Nat} (small : value < 65536) :
    word (store16 order value).1 (store16 order value).2 = 0 ↔
      value = 0 := by
  have upper : value / 256 < 256 := Nat.div_lt_of_lt_mul small
  have whole := Nat.div_add_mod value 256
  cases order <;>
    simp only [word, store16, UInt8.toNat_ofNat', Nat.mod_eq_of_lt upper,
      Nat.mod_mod, Nat.reducePow] <;>
    omega

/-- A field which was written elsewhere, as it is read here. -/
theorem getField_setField
    {order : ByteOrder} (other : ByteOrder) {offset value : Nat}
    {sent received : Packet}
    (small : value < 65536)
    (held : offset + 2 ≤ sent.firstLen)
    (fits : offset + 2 ≤ received.firstLen)
    (same :
      received.bytes =
        (setField sent offset (store16 order value)).bytes) :
    getField other received offset = 0 ↔ value = 0 := by
  rcases setField_bytes held with ⟨front, back, rfl, _, written⟩
  rw [written] at same
  rw [getField_eq other fits same, load16_eq_zero,
    word_store16_eq_zero order small]

theorem ipChksumPseudo_lt
    (order : ByteOrder) (packet : Packet) (proto : UInt8) (ends : Ends)
    {protoLen : Nat} (small : protoLen < 65536) :
    ipChksumPseudo order packet proto protoLen ends < 65536 := by
  rw [ipChksumPseudo_eq order packet proto small ends]
  exact Nat.lt_succ_of_le (Nat.sub_le _ _)

theorem udpInputChksum_output
    (order other : ByteOrder) (ends : Ends) (nochksum : Bool)
    {sent received : Packet}
    (held : udpHlen ≤ sent.firstLen) (fits : udpHlen ≤ received.firstLen)
    (same :
      received.bytes = (udpOutputChksum order ends nochksum sent).bytes) :
    udpInputChksum other ends received = true ∧
      (getField other received 6 = 0 ↔
        Ends.isV6 ends = false ∧ nochksum = true) := by
  by_cases summed : (Ends.isV6 ends || !nochksum) = true
  · simp only [udpOutputChksum, setField_setField, totLen_setField,
      if_pos summed] at same
    have small := ipChksumPseudo_lt order
      (setField sent 6 (store16 order 0)) ipProtoUdp ends (totLen_lt sent)
    have demanded :
        ¬ (Ends.isV6 ends = false ∧ nochksum = true) := by
      rintro ⟨four, without⟩
      simp [four, without] at summed
    generalize computed :
      ipChksumPseudo order (setField sent 6 (store16 order 0)) ipProtoUdp
        sent.totLen ends = value at same small
    have checks :
        ipChksumPseudo other received ipProtoUdp received.totLen ends =
          0 := by
      apply checks_of_filled (show 6 + 2 ≤ sent.firstLen from held)
        (by decide) ?_ same
      rw [computed]
      by_cases zero : value = 0
      · exact Or.inr ⟨zero, if_pos zero⟩
      · exact Or.inl (if_neg zero)
    have field := getField_setField other
      (show (if value = 0 then 65535 else value) < 65536 by
        split <;> omega) held fits same
    refine ⟨by simp [udpInputChksum, fits, checks], ?_⟩
    rw [field]
    refine ⟨?_, fun without => (demanded without).elim⟩
    split <;> omega
  · have without : Ends.isV6 ends = false ∧ nochksum = true := by
      simpa using summed
    simp only [udpOutputChksum, if_neg summed] at same
    have field :=
      (getField_setField other (by decide) held fits same).mpr rfl
    refine ⟨by simp [udpInputChksum, fits, field], ?_⟩
    exact ⟨fun _ => without, fun _ => field⟩

/--
Whatever the two hosts are, and wherever the pbufs lie and end: a TCP segment,
a UDP datagram and a header of IPv4 whose checksum was filled in on one of
them pass the checks of the other one, and a UDP datagram is sent with a
checksum unless the pcb has none and the datagram may have none.
-/
theorem filled_checksums_check (order other : ByteOrder) :
    (∀ (ends : Ends) (sent received : Packet),
      tcpHlen ≤ sent.firstLen → tcpHlen ≤ received.firstLen →
      received.bytes = (tcpOutputChksum order ends sent).bytes →
      tcpInputChksum other ends received = true) ∧
    (∀ (ends : Ends) (nochksum : Bool) (sent received : Packet),
      udpHlen ≤ sent.firstLen → udpHlen ≤ received.firstLen →
      received.bytes = (udpOutputChksum order ends nochksum sent).bytes →
      udpInputChksum other ends received = true ∧
        (getField other received 6 = 0 ↔
          Ends.isV6 ends = false ∧ nochksum = true)) ∧
    (∀ (odd : Bool) (fields : Ip4Fields) (data : List UInt8) (totLen : Nat),
      20 ≤ fields.totLen.toNat → fields.totLen.toNat ≤ totLen →
      ip4InputHeader other odd (ip4OutputHeader order fields ++ data)
        totLen = true) := by
  refine ⟨?_, ?_, ?_⟩
  · intro ends sent received held fits same
    simp only [tcpOutputChksum, setField_setField, totLen_setField] at same
    have checks :=
      checks_of_filled (Nat.le_trans (by decide) held) (by decide)
        (Or.inl rfl) same other
    simp [tcpInputChksum, fits, checks]
  · intro ends nochksum sent received held fits same
    exact udpInputChksum_output order other ends nochksum held fits same
  · intro odd fields data totLen least most
    exact ip4InputHeader_output order other odd fields data least most

/-- A segment with seven bytes of data. -/
def sampleSent : Packet where
  pbufs :=
    [{ odd := false
       pbuf :=
         { payload := List.replicate 27 7
           totLen := 27
           len_lt := by decide } }]
  sound := ⟨rfl, trivial⟩

def sampleEnds : Ends := .v4 #v[10, 0, 0, 7] #v[100, 64, 1, 2]

/-- It is received in two pbufs, of which the first has an odd length. -/
def sampleReceived : Packet where
  pbufs :=
    [{ odd := true
       pbuf :=
         { payload :=
             (tcpOutputChksum .little sampleEnds sampleSent).bytes.take 21
           totLen := 27
           len_lt := by decide +kernel } },
     { odd := false
       pbuf :=
         { payload :=
             (tcpOutputChksum .little sampleEnds sampleSent).bytes.drop 21
           totLen := 6
           len_lt := by decide +kernel } }]
  sound := ⟨by decide +kernel, by decide +kernel, trivial⟩

theorem filled_checksums_check_sample :
    tcpInputChksum .big sampleEnds sampleReceived = true :=
  (filled_checksums_check .little .big).1 sampleEnds sampleSent
    sampleReceived (by decide) (by decide +kernel)
    (by simp [sampleReceived, Packet.bytes])

/--
Every change of a packet within one of its 16-bit words is noticed, unless it
is the change between zero and 0xffff, which are the same number to the
checksum: two packets which differ so do not both pass.
-/
theorem one_word_error_detected
    (order other : ByteOrder) (ends : Ends) (proto : UInt8)
    {packet damaged : Packet} {front back : List UInt8} {a b c d : UInt8}
    (even : front.length % 2 = 0)
    (intended : packet.bytes = front ++ [a, b] ++ back)
    (arrived : damaged.bytes = front ++ [c, d] ++ back)
    (passes :
      ipChksumPseudo order packet proto packet.totLen ends = 0)
    (changed : word a b ≠ word c d)
    (other_zero :
      ¬ (word a b = 0 ∧ word c d = 65535) ∧
        ¬ (word a b = 65535 ∧ word c d = 0)) :
    ipChksumPseudo other damaged proto damaged.totLen ends ≠ 0 := by
  intro fooled
  rw [ipChksumPseudo_eq_zero, intended, ← List.append_assoc,
    ← List.append_assoc] at passes
  rw [ipChksumPseudo_eq_zero, arrived, ← List.append_assoc,
    ← List.append_assoc] at fooled
  have lengths :
      (front ++ [c, d] ++ back).length = (front ++ [a, b] ++ back).length := by
    simp
  rw [lengths] at fooled
  have lead :
      (pseudoHeader proto ((front ++ [a, b] ++ back).length % 65536) ends ++
        front).length % 2 = 0 := by
    have header := pseudoHeader_even proto
      ((front ++ [a, b] ++ back).length % 65536) ends
    rw [List.length_append]
    omega
  rcases checksum_detects lead passes fooled with same | fluke | fluke
  · exact changed same
  · exact other_zero.1 fluke
  · exact other_zero.2 fluke

/-- The third word of the segment has lost a bit. -/
def sampleDamaged : Packet where
  pbufs :=
    [{ odd := false
       pbuf :=
         { payload :=
             sampleReceived.bytes.take 4 ++ [7, 6] ++
               sampleReceived.bytes.drop 6
           totLen := 27
           len_lt := by decide +kernel } }]
  sound := ⟨by decide +kernel, trivial⟩

theorem one_word_error_detected_sample :
    ipChksumPseudo .little sampleDamaged ipProtoTcp sampleDamaged.totLen
      sampleEnds ≠ 0 := by
  have intended :
      sampleReceived.bytes =
        sampleReceived.bytes.take 4 ++ [7, 7] ++
          sampleReceived.bytes.drop 6 := by
    decide +kernel
  have arrived :
      sampleDamaged.bytes =
        sampleReceived.bytes.take 4 ++ [7, 6] ++
          sampleReceived.bytes.drop 6 := by
    simp [sampleDamaged, Packet.bytes]
  exact one_word_error_detected .little .little sampleEnds ipProtoTcp
    (by decide +kernel) intended arrived (by decide +kernel) (by decide)
    (by decide)

end Nsproxy.Lwip.ChksumChecks
