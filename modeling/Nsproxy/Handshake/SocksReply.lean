import Mathlib.Tactic.Common
import Nsproxy.Lib.Framing
import Nsproxy.Socks

/-!
# The reply of a SOCKS5 server

`Reply` is the message by which a server answers a request, and `encode` its
bytes.  `socks5_hdr_get` and `socks5_addr_get` read exactly such a message off
the front of a buffer, whatever follows it.  So the reply is a message which
ends at the same place for every reader of the stream.
-/

namespace Nsproxy.Handshake.SocksReply

open Nsproxy.Conf
open Nsproxy.Lib.Framing
open Nsproxy.Socks

/-! ## The message -/

/-- ATYP and ADDR of a reply. -/
inductive ReplyAddr where
  | v4 (addr : Vector UInt8 4)
  | v6 (addr : Vector UInt8 16)
  | domain (name : List UInt8) (short : name.length < 256)

namespace ReplyAddr

/-- The type byte, the length of a domain, and the address. -/
def encode : ReplyAddr → List UInt8
  | .v4 addr => 1 :: addr.toList
  | .v6 addr => 4 :: addr.toList
  | .domain name _ => 3 :: UInt8.ofNat name.length :: name

/-- The address as a text. -/
def text (inet : Inet) : ReplyAddr → Text
  | .v4 addr => inet.ntop4 addr
  | .v6 addr => inet.ntop6 addr
  | .domain name _ => name

end ReplyAddr

/-- A reply; that of a SOCKS5 server has the version five. -/
structure Reply where
  ver : UInt8
  rep : UInt8
  rsv : UInt8
  addr : ReplyAddr
  port : UInt16

namespace Reply

/-- The bytes of a reply. -/
def encode (reply : Reply) : List UInt8 :=
  [reply.ver, reply.rep, reply.rsv] ++ reply.addr.encode ++
    portbe reply.port

/-- What `socks5_hdr_get` reads. -/
def hdr (reply : Reply) : Socks5Hdr := ⟨reply.ver, reply.rep, reply.rsv⟩

/-- What `socks5_addr_get` reads. -/
def relay (inet : Inet) (reply : Reply) : RelAddr :=
  ⟨reply.addr.text inet, reply.port⟩

end Reply

/-! ## Ports -/

theorem getPort_portbe (port : UInt16) (rest : List UInt8) :
    getPort (portbe port ++ rest) = some (port, rest) := by
  have bound := port.toNat_lt
  have high : port.toNat / 256 < 2 ^ 8 := by omega
  have low : port.toNat % 256 < 2 ^ 8 := Nat.mod_lt _ (by decide)
  have same : port.toNat / 256 * 256 + port.toNat % 256 = port.toNat :=
    Nat.div_add_mod' _ _
  have read :
      getPort (portbe port ++ rest) =
        some
          (UInt16.ofNat
            ((UInt8.ofNat (port.toNat / 256)).toNat * 256 +
              (UInt8.ofNat (port.toNat % 256)).toNat),
            rest) :=
    rfl
  rw [read, UInt8.toNat_ofNat_of_lt' high, UInt8.toNat_ofNat_of_lt' low,
    same, UInt16.ofNat_toNat]

theorem getPort_some
    {buffer rest : List UInt8} {port : UInt16}
    (read : getPort buffer = some (port, rest)) :
    buffer = portbe port ++ rest := by
  unfold getPort at read
  split at read
  · next high low behind =>
      cases read
      have highBound := high.toNat_lt
      have lowBound := low.toNat_lt
      have small : high.toNat * 256 + low.toNat < 2 ^ 16 := by omega
      have front : (high.toNat * 256 + low.toNat) / 256 = high.toNat := by
        omega
      have back : (high.toNat * 256 + low.toNat) % 256 = low.toNat := by
        omega
      rw [portbe, UInt16.toNat_ofNat_of_lt' small, front, back,
        UInt8.ofNat_toNat, UInt8.ofNat_toNat]
      rfl
  · cases read

/-! ## Addresses -/

theorem getAddr_encode
    (inet : Inet) (addr : ReplyAddr) (rest : List UInt8) :
    ∃ atype buffer,
      addr.encode ++ rest = atype :: buffer ∧
        getAddr inet atype buffer = some (addr.text inet, rest) := by
  cases addr with
  | v4 addr =>
      have size : addr.toList.length = 4 := Vector.length_toList
      refine ⟨1, addr.toList ++ rest, rfl, ?_⟩
      simp [getAddr, ReplyAddr.text, List.take_left' size,
        List.drop_left' size]
      rfl
  | v6 addr =>
      have size : addr.toList.length = 16 := Vector.length_toList
      refine ⟨4, addr.toList ++ rest, rfl, ?_⟩
      simp [getAddr, ReplyAddr.text, List.take_left' size,
        List.drop_left' size]
      rfl
  | domain name short =>
      refine ⟨3, UInt8.ofNat name.length :: (name ++ rest), rfl, ?_⟩
      have size : (UInt8.ofNat name.length).toNat = name.length :=
        UInt8.toNat_ofNat_of_lt' short
      simp [getAddr, ReplyAddr.text, size]

theorem getAddr_some
    {inet : Inet} {atype : UInt8} {buffer rest : List UInt8} {text : Text}
    (read : getAddr inet atype buffer = some (text, rest)) :
    ∃ addr : ReplyAddr,
      atype :: buffer = addr.encode ++ rest ∧ text = addr.text inet := by
  unfold getAddr at read
  split at read
  · next v4 =>
      split at read
      · next bounded =>
          cases read
          refine ⟨.v4 ⟨(buffer.take 4).toArray, by simp [bounded]⟩, ?_, rfl⟩
          simp [ReplyAddr.encode, v4]
      · cases read
  · split at read
    · next v6 =>
        split at read
        · next bounded =>
            cases read
            refine
              ⟨.v6 ⟨(buffer.take 16).toArray, by simp [bounded]⟩, ?_, rfl⟩
            simp [ReplyAddr.encode, v6]
        · cases read
    · split at read
      · next domain =>
          split at read
          · cases read
          · next alen behind =>
              split at read
              · cases read
              · next enough =>
                  cases read
                  have bounded : alen.toNat ≤ behind.length :=
                    Nat.le_of_not_lt enough
                  have size :
                      (behind.take alen.toNat).length = alen.toNat := by
                    rw [List.length_take, Nat.min_eq_left bounded]
                  refine ⟨.domain (behind.take alen.toNat) ?_, ?_, rfl⟩
                  · rw [size]
                    exact alen.toNat_lt
                  · simp [ReplyAddr.encode, size, domain]
      · cases read

/-! ## Replies -/

theorem parseReply_encode
    (inet : Inet) (reply : Reply) (rest : List UInt8) :
    parseReply inet (reply.encode ++ rest) =
      some (reply.hdr, reply.relay inet, rest) := by
  rcases getAddr_encode inet reply.addr (portbe reply.port ++ rest) with
    ⟨atype, buffer, split, read⟩
  have whole :
      reply.encode ++ rest =
        reply.ver :: reply.rep :: reply.rsv :: atype :: buffer := by
    rw [← split]
    simp [Reply.encode]
  rw [whole]
  simp only [parseReply, socks5HdrGet, socks5AddrGet, read,
    getPort_portbe]
  rfl

theorem parseReply_some
    {inet : Inet} {buffer rest : List UInt8} {hdr : Socks5Hdr}
    {relay : RelAddr}
    (read : parseReply inet buffer = some (hdr, relay, rest)) :
    ∃ reply : Reply,
      buffer = reply.encode ++ rest ∧ hdr = reply.hdr ∧
        relay = reply.relay inet := by
  match buffer, read with
  | [], read => cases read
  | [_], read => cases read
  | [_, _], read => cases read
  | [_, _, _], read => cases read
  | ver :: rep :: rsv :: atype :: behind, read =>
      simp only [parseReply, socks5HdrGet, socks5AddrGet] at read
      cases address : getAddr inet atype behind with
      | none =>
          simp only [address] at read
          cases read
      | some found =>
          rcases found with ⟨text, afterAddr⟩
          simp only [address] at read
          cases last : getPort afterAddr with
          | none =>
              simp only [last] at read
              cases read
          | some found =>
              rcases found with ⟨port, behindPort⟩
              simp only [last] at read
              cases read
              rcases getAddr_some address with ⟨addr, front, rfl⟩
              refine ⟨⟨ver, rep, rsv, addr, port⟩, ?_, rfl, rfl⟩
              rw [front, getPort_some last]
              simp [Reply.encode]

theorem length_encode_pos (reply : Reply) : 0 < reply.encode.length := by
  simp [Reply.encode]

/-- A reply is short enough for the handshake buffer. -/
theorem length_encode_lt (reply : Reply) :
    reply.encode.length < socksHsBuff - 1 := by
  rcases reply with ⟨ver, rep, rsv, addr, port⟩
  cases addr with
  | v4 addr =>
      simp [Reply.encode, ReplyAddr.encode, portbe, socksHsBuff]
  | v6 addr =>
      simp [Reply.encode, ReplyAddr.encode, portbe, socksHsBuff]
  | domain name short =>
      simp [Reply.encode, ReplyAddr.encode, portbe, socksHsBuff]
      omega

/-- Where the reply in a buffer ends. -/
def replyEnds (inet : Inet) (buffer : List UInt8) : Option Nat :=
  (parseReply inet buffer).map fun found =>
    buffer.length - found.2.2.length

theorem replyEnds_encode
    (inet : Inet) (reply : Reply) (rest : List UInt8) :
    replyEnds inet (reply.encode ++ rest) = some reply.encode.length := by
  rw [replyEnds, parseReply_encode]
  simp

theorem replyEnds_some
    {inet : Inet} {buffer : List UInt8} {size : Nat}
    (ends : replyEnds inet buffer = some size) :
    ∃ (reply : Reply) (rest : List UInt8),
      buffer = reply.encode ++ rest ∧ size = reply.encode.length := by
  rcases Option.map_eq_some_iff.mp ends with
    ⟨⟨hdr, relay, rest⟩, read, same⟩
  rcases parseReply_some read with ⟨reply, rfl, _, _⟩
  refine ⟨reply, rest, rfl, ?_⟩
  rw [← same]
  simp

/-- The reply is the first message of a stream. -/
def replyFinder (inet : Inet) : Finder UInt8 where
  ends := replyEnds inet
  inside := by
    intro bytes size ends
    rcases replyEnds_some ends with ⟨reply, rest, rfl, rfl⟩
    simp
  final := by
    intro bytes size more ends
    rcases replyEnds_some ends with ⟨reply, rest, rfl, rfl⟩
    rw [List.append_assoc]
    exact replyEnds_encode inet reply (rest ++ more)
  prompt := by
    intro bytes size ends
    rcases replyEnds_some ends with ⟨reply, rest, rfl, rfl⟩
    rw [List.take_left' rfl]
    have alone := replyEnds_encode inet reply []
    rwa [List.append_nil] at alone

theorem parseReply_eq_none {inet : Inet} {buffer : List UInt8} :
    parseReply inet buffer = none ↔ (replyFinder inet).ends buffer = none := by
  simp [replyFinder, replyEnds]

end Nsproxy.Handshake.SocksReply
