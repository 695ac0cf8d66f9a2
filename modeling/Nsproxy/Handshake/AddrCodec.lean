import Mathlib.Tactic.Common
import Nsproxy.Conf
import Nsproxy.Handshake.SocksReply
import Nsproxy.InetText
import Nsproxy.Lib.Buffer
import Nsproxy.Socks

/-!
# The codec of SOCKS5 addresses

`socks5_addr_put` and `socks5_addr_get` with their buffers: every `memcpy` is
an access to an array of the given size, and an access outside of it is a
fault.  Both refine the functions on byte lists which the handshake uses, so
no access is ever outside.

What is put is read back, whatever follows it in the buffer.  A part of it is
never taken for an address.
-/

namespace Nsproxy.Handshake.AddrCodec

open Nsproxy.Conf
open Nsproxy.Handshake.SocksReply
open Nsproxy.InetText
open Nsproxy.Lib.Buffer
open Nsproxy.Socks

/-! ## The functions and their buffers -/

/-- The address type, and the bytes at `aptr`; there are `alen` of them. -/
def addrBytes (inet : Inet) (addr : Text) : UInt8 × List UInt8 :=
  match inet.pton4 addr with
  | some in4 => (1, in4.toList)
  | none =>
      match inet.pton6 addr with
      | some in6 => (4, in6.toList)
      | none => (3, addr.take (addr.length % 256))

/--
`socks5_addr_put` on a buffer: the number of bytes written, or `none` when
the buffer is too small for them, and the buffer afterwards.
-/
def socks5AddrPutBuffer
    (inet : Inet) (buffer : List UInt8) (addr : Text) (port : UInt16) :
    Except Outside (Option Nat × List UInt8) :=
  let atype := (addrBytes inet addr).1
  let bytes := (addrBytes inet addr).2
  let alen := bytes.length
  if (if atype = 3 then 1 + 1 + alen + 2 else 1 + alen + 2) >
      buffer.length then
    .ok (none, buffer)
  else do
    let (buffer, offset) ← append buffer 0 [atype]
    let (buffer, offset) ←
      if atype = 3 then append buffer offset [UInt8.ofNat alen]
      else .ok (buffer, offset)
    let (buffer, offset) ← append buffer offset bytes
    let (buffer, offset) ← append buffer offset (portbe port)
    return (some offset, buffer)

/-- The `switch` of `socks5_addr_get`: the address, and where it ends. -/
def socks5AddrSwitch (inet : Inet) (atype : UInt8) (buffer : List UInt8) :
    Except Outside (Option (Text × Nat)) :=
  if atype = 1 then
    if 1 + 4 > buffer.length then
      .ok none
    else do
      let in4 ← load buffer 1 4
      return some (inet.ntop4 (vectorOf 4 in4), 5)
  else if atype = 4 then
    if 1 + 16 > buffer.length then
      .ok none
    else do
      let in6 ← load buffer 1 16
      return some (inet.ntop6 (vectorOf 16 in6), 17)
  else if atype = 3 then
    if 1 + 1 > buffer.length then
      .ok none
    else do
      let alen ← load buffer 1 1
      if 2 + (alen.headD 0).toNat > buffer.length then
        return none
      else
        let name ← load buffer 2 (alen.headD 0).toNat
        return some (name, 2 + (alen.headD 0).toNat)
  else
    .ok none

/-- `ntohs`, on the two bytes of the port. -/
def ntohs (bytes : List UInt8) : UInt16 :=
  UInt16.ofNat ((bytes.getD 0 0).toNat * 256 + (bytes.getD 1 0).toNat)

/--
`socks5_addr_get` on a buffer: the address and the number of bytes read, or
`none` when it returns -1.
-/
def socks5AddrGetBuffer (inet : Inet) (buffer : List UInt8) :
    Except Outside (Option (RelAddr × Nat)) :=
  if 1 > buffer.length then
    .ok none
  else do
    let atype ← load buffer 0 1
    let found ← socks5AddrSwitch inet (atype.headD 0) buffer
    match found with
    | none => return none
    | some (addr, cur) =>
        if cur + 2 > buffer.length then
          return none
        else
          let portbe ← load buffer cur 2
          return some (⟨addr, ntohs portbe⟩, cur + 2)

/-! ## The accesses are inside -/

theorem encodeAddr_eq (inet : Inet) (addr : Text) (port : UInt16) :
    encodeAddr inet addr port =
      if (addrBytes inet addr).1 = 3 then
        [(addrBytes inet addr).1] ++
          [UInt8.ofNat (addrBytes inet addr).2.length] ++
            (addrBytes inet addr).2 ++ portbe port
      else
        [(addrBytes inet addr).1] ++ (addrBytes inet addr).2 ++
          portbe port := by
  unfold encodeAddr addrBytes
  cases inet.pton4 addr with
  | some in4 => rfl
  | none =>
      cases inet.pton6 addr with
      | some in6 => rfl
      | none =>
          have size :
              (addr.take (addr.length % 256)).length =
                addr.length % 256 := by
            rw [List.length_take]
            exact Nat.min_eq_left (Nat.mod_le _ _)
          simp only [if_true, size]
          rfl

/-- The address and the port, behind what is in front of them. -/
theorem append_addr
    {buffer front : List UInt8} (bytes : List UInt8) (port : UInt16)
    {offset : Nat} (begins : front.length = offset)
    (room : offset + bytes.length + 2 ≤ buffer.length) :
    (do
      let (buffer, offset) ← append (written front buffer) offset bytes
      let (buffer, offset) ← append buffer offset (portbe port)
      return (some offset, buffer) :
        Except Outside (Option Nat × List UInt8)) =
      .ok
        (some (offset + bytes.length + 2),
          written (front ++ bytes ++ portbe port) buffer) := by
  have size : (portbe port).length = 2 := rfl
  have first :
      append (written front buffer) offset bytes =
        .ok (written (front ++ bytes) buffer, offset + bytes.length) := by
    apply append_written begins
    omega
  have second :
      append (written (front ++ bytes) buffer) (offset + bytes.length)
          (portbe port) =
        .ok
          (written (front ++ bytes ++ portbe port) buffer,
            offset + bytes.length + 2) := by
    apply append_written
    · rw [List.length_append, begins]
    · rw [size]
      exact room
  simp only [first, second, bind, Except.bind, pure, Except.pure]

/-- `socks5_addr_put` writes the encoding, or nothing if it does not fit. -/
theorem socks5AddrPutBuffer_eq
    (inet : Inet) (buffer : List UInt8) (addr : Text) (port : UInt16) :
    socks5AddrPutBuffer inet buffer addr port =
      .ok
        (if buffer.length < (encodeAddr inet addr port).length then
          (none, buffer)
        else
          (some (encodeAddr inet addr port).length,
            written (encodeAddr inet addr port) buffer)) := by
  have size : (portbe port).length = 2 := rfl
  rw [encodeAddr_eq]
  simp only [socks5AddrPutBuffer]
  generalize (addrBytes inet addr).1 = atype
  generalize (addrBytes inet addr).2 = bytes
  have first (room : 1 ≤ buffer.length) :
      append buffer 0 [atype] = .ok (written [atype] buffer, 1) :=
    append_front room
  by_cases domain : atype = 3
  · simp only [if_pos domain, List.length_append, List.length_singleton,
      size]
    by_cases small : buffer.length < 1 + 1 + bytes.length + 2
    · rw [if_pos small, if_pos small]
    · rw [if_neg small, if_neg small, first (by omega)]
      have second :
          append (written [atype] buffer) 1 [UInt8.ofNat bytes.length] =
            .ok
              (written ([atype] ++ [UInt8.ofNat bytes.length]) buffer,
                1 + 1) :=
        append_written rfl (by rw [List.length_singleton]; omega)
      simp only [bind, Except.bind, second]
      exact append_addr bytes port rfl (Nat.le_of_not_lt small)
  · simp only [if_neg domain, List.length_append, List.length_singleton,
      size]
    by_cases small : buffer.length < 1 + bytes.length + 2
    · rw [if_pos small, if_pos small]
    · rw [if_neg small, if_neg small, first (by omega)]
      exact append_addr bytes port rfl (Nat.le_of_not_lt small)

/-! ## Reading -/

/-- Bytes behind the type of the address. -/
theorem load_behind
    (atype : UInt8) {rest : List UInt8} {position count : Nat}
    (inside : position + count ≤ rest.length) :
    load (atype :: rest) (position + 1) count =
      .ok ((rest.drop position).take count) := by
  apply load_eq
  rw [List.length_cons]
  omega

/-- An address of a fixed size. -/
theorem load_fixed
    {size : Nat} (render : Vector UInt8 size → Text) (atype : UInt8)
    (rest : List UInt8) :
    (if 1 + size > rest.length + 1 then
        .ok none
      else do
        let bytes ← load (atype :: rest) 1 size
        return some (render (vectorOf size bytes), 1 + size) :
      Except Outside (Option (Text × Nat))) =
      .ok
        ((if bounded : size ≤ rest.length then
            some
              (render
                ⟨(rest.take size).toArray,
                  List.length_take_of_le bounded⟩,
                rest.drop size)
          else
            none).map fun found =>
          (found.1, rest.length + 1 - found.2.length)) := by
  by_cases bounded : size ≤ rest.length
  · have room : ¬ 1 + size > rest.length + 1 := by omega
    have inside : 0 + size ≤ rest.length := by omega
    have fits : (rest.take size).length = size := by
      rw [List.length_take]
      exact Nat.min_eq_left bounded
    have ends : rest.length + 1 - (rest.length - size) = 1 + size := by
      omega
    have loaded := load_behind atype inside
    rw [Nat.zero_add, List.drop_zero] at loaded
    rw [if_neg room, dif_pos bounded, loaded]
    simp only [bind, Except.bind, pure, Except.pure, vectorOf_eq fits,
      Option.map_some, List.length_drop, ends]
  · have full : 1 + size > rest.length + 1 := by omega
    rw [if_pos full, dif_neg bounded]
    rfl

/-- A domain, with its length in front of it. -/
theorem load_domain (atype : UInt8) (rest : List UInt8) :
    (if 1 + 1 > rest.length + 1 then
        .ok none
      else do
        let alen ← load (atype :: rest) 1 1
        if 2 + (alen.headD 0).toNat > rest.length + 1 then
          return none
        else
          let name ← load (atype :: rest) 2 (alen.headD 0).toNat
          return some (name, 2 + (alen.headD 0).toNat) :
      Except Outside (Option (Text × Nat))) =
      .ok
        ((match rest with
          | [] => none
          | alen :: name =>
              if name.length < alen.toNat then none
              else
                some (name.take alen.toNat, name.drop alen.toNat)).map
          fun found : Text × List UInt8 =>
            (found.1, rest.length + 1 - found.2.length)) := by
  cases rest with
  | nil => rfl
  | cons alen name =>
      have room : ¬ 1 + 1 > (alen :: name).length + 1 := by
        rw [List.length_cons]
        omega
      have first : load (atype :: alen :: name) 1 1 = .ok [alen] :=
        @load_behind atype (alen :: name) 0 1 (by simp)
      rw [if_neg room, first]
      simp only [bind, Except.bind, pure, Except.pure]
      by_cases short : name.length < alen.toNat
      · have full :
            2 + ([alen].headD 0).toNat > (alen :: name).length + 1 := by
          rw [List.headD_cons, List.length_cons]
          omega
        rw [if_pos full, if_pos short]
        rfl
      · have inside :
            ¬ 2 + ([alen].headD 0).toNat > (alen :: name).length + 1 := by
          rw [List.headD_cons, List.length_cons]
          omega
        have second :
            load (atype :: alen :: name) 2 alen.toNat =
              .ok (name.take alen.toNat) :=
          @load_behind atype (alen :: name) 1 alen.toNat
            (by rw [List.length_cons]; omega)
        have ends :
            name.length + 1 + 1 - (name.length - alen.toNat) =
              2 + alen.toNat := by
          omega
        rw [if_neg inside, if_neg short, List.headD_cons, second]
        simp only [Option.map_some, List.length_drop, List.length_cons,
          ends]

/-- The `switch` reads what the reader of byte lists reads. -/
theorem socks5AddrSwitch_eq
    (inet : Inet) (atype : UInt8) (rest : List UInt8) :
    socks5AddrSwitch inet atype (atype :: rest) =
      .ok
        ((getAddr inet atype rest).map fun found =>
          (found.1, (atype :: rest).length - found.2.length)) := by
  simp only [socks5AddrSwitch, getAddr, List.length_cons]
  by_cases v4 : atype = 1
  · simp only [if_pos v4]
    exact load_fixed inet.ntop4 atype rest
  · simp only [if_neg v4]
    by_cases v6 : atype = 4
    · simp only [if_pos v6]
      exact load_fixed inet.ntop6 atype rest
    · simp only [if_neg v6]
      by_cases domain : atype = 3
      · simp only [if_pos domain]
        exact load_domain atype rest
      · simp only [if_neg domain]
        rfl

/-- `socks5_addr_get` reads what the reader of byte lists reads. -/
theorem socks5AddrGetBuffer_eq (inet : Inet) (buffer : List UInt8) :
    socks5AddrGetBuffer inet buffer =
      .ok
        ((socks5AddrGet inet buffer).map fun found =>
          (found.1, buffer.length - found.2.length)) := by
  cases buffer with
  | nil => rfl
  | cons atype rest =>
      have some_byte : ¬ 1 > (atype :: rest).length := by
        rw [List.length_cons]
        omega
      have first : load (atype :: rest) 0 1 = .ok [atype] :=
        @load_append UInt8 [] [atype] rest 0 1 rfl rfl
      rw [socks5AddrGetBuffer, if_neg some_byte, first]
      simp only [bind, Except.bind, List.headD_cons, socks5AddrSwitch_eq,
        socks5AddrGet]
      cases address : getAddr inet atype rest with
      | none => rfl
      | some found =>
          rcases found with ⟨text, behind⟩
          rcases getAddr_some address with ⟨addr, split, _⟩
          rw [split]
          have ends :
              (addr.encode ++ behind).length - behind.length =
                addr.encode.length := by
            rw [List.length_append, Nat.add_sub_cancel]
          simp only [Option.map_some, ends]
          rcases behind with _ | ⟨high, _ | ⟨low, rest⟩⟩
          · have full :
                addr.encode.length + 2 > (addr.encode ++ []).length := by
              rw [List.length_append, List.length_nil]
              omega
            rw [if_pos full]
            rfl
          · have full :
                addr.encode.length + 2 >
                  (addr.encode ++ [high]).length := by
              rw [List.length_append, List.length_singleton]
              omega
            rw [if_pos full]
            rfl
          · have room :
                ¬ addr.encode.length + 2 >
                  (addr.encode ++ high :: low :: rest).length := by
              simp only [List.length_append, List.length_cons]
              omega
            have last :
                load (addr.encode ++ high :: low :: rest)
                    addr.encode.length 2 = .ok [high, low] :=
              @load_append UInt8 addr.encode [high, low] rest _ 2 rfl rfl
            have count :
                (addr.encode ++ high :: low :: rest).length -
                    rest.length = addr.encode.length + 2 := by
              simp only [List.length_append, List.length_cons]
              omega
            rw [if_neg room, last]
            simp only [getPort, Option.map_some, count]
            rfl

/-! ## The codec -/

/-- The target as the encoding has it. -/
def target (inet : Inet) (addr : Text) (short : addr.length < 256) :
    ReplyAddr :=
  match inet.pton4 addr with
  | some in4 => .v4 in4
  | none =>
      match inet.pton6 addr with
      | some in6 => .v6 in6
      | none => .domain addr short

/-- The text of an address as `socks5_addr_get` returns it. -/
def canonical (inet : Inet) (addr : Text) : Text :=
  match inet.pton4 addr with
  | some in4 => inet.ntop4 in4
  | none =>
      match inet.pton6 addr with
      | some in6 => inet.ntop6 in6
      | none => addr

theorem encodeAddr_target
    (inet : Inet) (addr : Text) (short : addr.length < 256)
    (port : UInt16) :
    encodeAddr inet addr port =
      (target inet addr short).encode ++ portbe port := by
  unfold encodeAddr target
  cases inet.pton4 addr with
  | some in4 => rfl
  | none =>
      cases inet.pton6 addr with
      | some in6 => rfl
      | none =>
          simp only [Nat.mod_eq_of_lt short, List.take_length]
          rfl

theorem text_target
    (inet : Inet) (addr : Text) (short : addr.length < 256) :
    (target inet addr short).text inet = canonical inet addr := by
  unfold target canonical
  cases inet.pton4 addr with
  | some in4 => rfl
  | none =>
      cases inet.pton6 addr with
      | some in6 => rfl
      | none => rfl

/-- What is behind an encoded address is left alone. -/
theorem socks5AddrGet_encode
    (inet : Inet) (addr : ReplyAddr) (port : UInt16)
    (rest : List UInt8) :
    socks5AddrGet inet (addr.encode ++ portbe port ++ rest) =
      some (⟨addr.text inet, port⟩, rest) := by
  rcases getAddr_encode inet addr (portbe port ++ rest) with
    ⟨atype, buffer, split, read⟩
  rw [List.append_assoc, split]
  simp only [socks5AddrGet, read, getPort_portbe]

/-- What is read is an encoded address. -/
theorem socks5AddrGet_some
    {inet : Inet} {buffer rest : List UInt8} {relay : RelAddr}
    (read : socks5AddrGet inet buffer = some (relay, rest)) :
    ∃ addr : ReplyAddr,
      buffer = addr.encode ++ portbe relay.port ++ rest ∧
        relay.addr = addr.text inet := by
  cases buffer with
  | nil => cases read
  | cons atype behind =>
      simp only [socks5AddrGet] at read
      split at read
      · cases read
      · next text afterAddr address =>
          split at read
          · cases read
          · next port after last =>
              cases read
              rcases getAddr_some address with ⟨addr, front, same⟩
              refine ⟨addr, ?_, same⟩
              rw [front, getPort_some last, List.append_assoc]

/-- A part of an encoded address is not an address. -/
theorem socks5AddrGet_part
    {inet : Inet} {addr : ReplyAddr} {port : UInt16}
    {part more : List UInt8}
    (split : addr.encode ++ portbe port = part ++ more)
    (proper : more ≠ []) :
    socks5AddrGet inet part = none := by
  cases read : socks5AddrGet inet part with
  | none => rfl
  | some found =>
      rcases found with ⟨relay, rest⟩
      rcases socks5AddrGet_some read with ⟨other, same, _⟩
      have whole := socks5AddrGet_encode inet addr port []
      rw [List.append_nil, split, same, List.append_assoc,
        socks5AddrGet_encode] at whole
      have nothing : rest ++ more = [] :=
        congrArg Prod.snd (Option.some.inj whole)
      exact absurd (List.append_eq_nil_iff.mp nothing).2 proper

/-- `inet_pton` reads back what `inet_ntop` writes. -/
structure Inverse (inet : Inet) : Prop where
  v4 : ∀ addr, inet.pton4 (inet.ntop4 addr) = some addr
  v6 : ∀ addr, inet.pton6 (inet.ntop6 addr) = some addr

/-- The text names the address: the same text, or one of the same bytes. -/
def Names (inet : Inet) (addr text : Text) : Prop :=
  match inet.pton4 addr with
  | some in4 => text = inet.ntop4 in4 ∧ inet.pton4 text = some in4
  | none =>
      match inet.pton6 addr with
      | some in6 => text = inet.ntop6 in6 ∧ inet.pton6 text = some in6
      | none => text = addr

theorem names_canonical
    {inet : Inet} (inverse : Inverse inet) (addr : Text) :
    Names inet addr (canonical inet addr) := by
  unfold Names canonical
  cases inet.pton4 addr with
  | some in4 => exact ⟨rfl, inverse.v4 in4⟩
  | none =>
      cases inet.pton6 addr with
      | some in6 => exact ⟨rfl, inverse.v6 in6⟩
      | none => rfl

/--
For every address of at most 255 bytes and every port, `socks5_addr_put`
fails exactly on the buffers which are shorter than the encoding, and else
writes the encoding to the front of the buffer.  `socks5_addr_get` reads the
encoding back, with the port and a text of the same address, whatever is
behind it; on a proper part of the encoding it fails.
-/
theorem socks5_addr_codec
    {inet : Inet} (inverse : Inverse inet) {addr : Text}
    (short : addr.length ≤ 255) (port : UInt16) :
    (∀ buffer,
      socks5AddrPutBuffer inet buffer addr port =
        .ok
          (if buffer.length < (encodeAddr inet addr port).length then
            (none, buffer)
          else
            (some (encodeAddr inet addr port).length,
              encodeAddr inet addr port ++
                buffer.drop (encodeAddr inet addr port).length))) ∧
      (∃ text,
        Names inet addr text ∧
          ∀ tail,
            socks5AddrGetBuffer inet (encodeAddr inet addr port ++ tail) =
              .ok
                (some
                  (⟨text, port⟩,
                    (encodeAddr inet addr port).length))) ∧
        ∀ part, part <+: encodeAddr inet addr port →
          part ≠ encodeAddr inet addr port →
            socks5AddrGetBuffer inet part = .ok none := by
  have small : addr.length < 256 := Nat.lt_succ_of_le short
  have encoded := encodeAddr_target inet addr small port
  constructor
  · intro buffer
    exact socks5AddrPutBuffer_eq inet buffer addr port
  · constructor
    · refine ⟨canonical inet addr, names_canonical inverse addr, ?_⟩
      intro tail
      rw [socks5AddrGetBuffer_eq, encoded, socks5AddrGet_encode,
        text_target, Option.map_some, List.length_append,
        Nat.add_sub_cancel]
    · rintro part ⟨more, split⟩ proper
      have rest : more ≠ [] := by
        rintro rfl
        rw [List.append_nil] at split
        exact proper split
      rw [socks5AddrGetBuffer_eq,
        socks5AddrGet_part (encoded.symm.trans split.symm) rest]
      rfl

theorem inverse_textInet : Inverse textInet :=
  ⟨textInet_v4, textInet_v6⟩

/-- The address `192.0.2.7` and the port 443. -/
theorem socks5_addr_codec_sample :
    encodeAddr textInet (ascii "192.0.2.7") 443 =
        [1, 192, 0, 2, 7, 1, 187] ∧
      socks5AddrGetBuffer textInet [1, 192, 0, 2, 7, 1] = .ok none ∧
        ∃ text,
          textInet.pton4 text = some (vectorOf 4 [192, 0, 2, 7]) ∧
            socks5AddrGetBuffer textInet
                [1, 192, 0, 2, 7, 1, 187, 9, 9] =
              .ok (some (⟨text, 443⟩, 7)) := by
  have short : (ascii "192.0.2.7").length ≤ 255 := by decide +kernel
  have encoded :
      encodeAddr textInet (ascii "192.0.2.7") 443 =
        [1, 192, 0, 2, 7, 1, 187] := by
    decide +kernel
  have parsed :
      textInet.pton4 (ascii "192.0.2.7") =
        some (vectorOf 4 [192, 0, 2, 7]) := by
    decide +kernel
  rcases socks5_addr_codec inverse_textInet short 443 with
    ⟨_, ⟨text, names, back⟩, parts⟩
  rw [encoded] at back parts
  rw [Names, parsed] at names
  refine ⟨encoded, ?_, text, names.2, back [9, 9]⟩
  exact parts _ ⟨[187], rfl⟩ (by decide)

end Nsproxy.Handshake.AddrCodec
