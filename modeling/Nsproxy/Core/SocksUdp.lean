import Mathlib.Tactic.Common
import Nsproxy.Conf
import Nsproxy.Handshake.AddrCodec
import Nsproxy.Handshake.SocksReply
import Nsproxy.InetText
import Nsproxy.Lib.Buffer
import Nsproxy.Skutils
import Nsproxy.Socks

/-!
# Datagrams through a SOCKS5 relay

`socks_send` and `socks_recv` once the handshake is done.  For UDP the first
one puts a header in front of the payload and the second one takes it off
again, inside of the caller's buffer; datagrams whose header it cannot read,
and fragments, are dropped and the next one is tried.

`Carries` is the format of a datagram.  The datagrams which wait at the relay
socket are dropped exactly up to the first one which carries a payload.
-/

namespace Nsproxy.Core.SocksUdp

open Nsproxy.Conf
open Nsproxy.Handshake.AddrCodec
open Nsproxy.Handshake.SocksReply
open Nsproxy.InetText
open Nsproxy.Lib.Buffer
open Nsproxy.Skutils
open Nsproxy.Socks

/-! ## Sending -/

/-- What `socks_send` does with the data. -/
inductive Sending where
  | refused (errno : Errno)
  | datagram (bytes : List UInt8)
  | stream (bytes : List UInt8)
deriving DecidableEq, Repr

/-- The size of `buffer` in `socks_send`. -/
def headerSize : Nat := 512

/-- The offset after `offset += ret`; a failed call returns -1. -/
def advance (offset : Nat) : Option Nat → Nat
  | some count => offset + count
  | none => offset - 1

/-- The two buffers of the message: the header, and the caller's data. -/
def socksMessage
    (inet : Inet) (self : ProxySocks) (buffer : Vector UInt8 headerSize)
    (data : List UInt8) :
    Except Outside (List UInt8) := do
  let (buffer, offset) ← append buffer.toList 0 [0, 0, 0]
  let (ret, behind) ←
    socks5AddrPutBuffer inet (buffer.drop offset)
      (self.addr.take servnameMaxlen) self.port
  let header ←
    load (buffer.take offset ++ behind) 0 (advance offset ret)
  return header ++ data

/-- `socks_send`; the buffer for the header is not initialised. -/
def socksSend
    (inet : Inet) (self : ProxySocks) (buffer : Vector UInt8 headerSize)
    (data : List UInt8) :
    Except Outside Sending :=
  if self.phase = .failed then
    .ok (.refused .econnaborted)
  else if self.phase ≠ .forwarding then
    .ok (.refused .einprogress)
  else if self.type = .udpForward then do
    let message ← socksMessage inet self buffer data
    return .datagram message
  else
    .ok (.stream data)

/-! ## Receiving -/

/-- `UDP_PACKET_MAXLEN`. -/
def udpPacketMaxlen : Nat := 65535

/-- A datagram; the length field of UDP also counts eight bytes of header. -/
structure Datagram where
  bytes : List UInt8
  small : bytes.length + 8 ≤ 65535

/-- What `socks_recv` returns, and what it leaves behind. -/
structure Received where
  result : Except Errno Nat
  data : List UInt8
  waiting : List Datagram

/--
The loop of `socks_recv`: the caller's buffer, and the datagrams which wait at
the socket.  When none is left the socket answers with an error.
-/
def socksRecvLoop (inet : Inet) (type : SocksType) (failure : Errno) :
    List UInt8 → List Datagram → Except Outside Received
  | data, [] => .ok ⟨.error failure, data, []⟩
  | data, datagram :: waiting => do
      let answer := datagram.bytes.take data.length
      let nread := answer.length
      let data ← store data 0 answer
      if type = .udpForward then
        if 3 > nread then
          socksRecvLoop inet type failure data waiting
        else
          let hdr ← load data 0 3
          let found ←
            socks5AddrGetBuffer inet ((data.take nread).drop 3)
          match found with
          | none => socksRecvLoop inet type failure data waiting
          | some (_, ret) =>
              if hdr.getD 2 0 ≠ 0 then
                socksRecvLoop inet type failure data waiting
              else
                let payload ← load data (3 + ret) (nread - (3 + ret))
                let data ← store data 0 payload
                return ⟨.ok (nread - (3 + ret)), data, waiting⟩
      else
        return ⟨.ok nread, data, waiting⟩

/-- `socks_recv`. -/
def socksRecv
    (inet : Inet) (self : ProxySocks) (failure : Errno)
    (data : List UInt8) (waiting : List Datagram) :
    Except Outside Received :=
  if self.phase = .failed then
    .ok ⟨.error .econnaborted, data, waiting⟩
  else if self.phase ≠ .forwarding then
    .ok ⟨.error .einprogress, data, waiting⟩
  else
    socksRecvLoop inet self.type failure data waiting

/-! ## The format of a datagram -/

/--
The datagram has a whole header and a whole address, is no fragment, and
carries this payload.
-/
def Carries (bytes payload : List UInt8) : Prop :=
  ∃ (first second : UInt8) (addr : ReplyAddr) (port : UInt16),
    bytes =
      [first, second, 0] ++ (addr.encode ++ portbe port ++ payload)

theorem carries_of_encodeAddr
    (inet : Inet) {addr : Text} (short : addr.length ≤ servnameMaxlen)
    (port : UInt16) (payload : List UInt8) :
    Carries ([0, 0, 0] ++ encodeAddr inet addr port ++ payload)
      payload := by
  have small : addr.length < 256 := Nat.lt_succ_of_le short
  refine ⟨0, 0, target inet addr small, port, ?_⟩
  rw [encodeAddr_target inet addr small, List.append_assoc]

/-! ## What is sent -/

theorem length_encodeAddr_le
    (inet : Inet) {addr : Text} (short : addr.length ≤ servnameMaxlen)
    (port : UInt16) :
    (encodeAddr inet addr port).length ≤ 259 := by
  have small : addr.length < 256 := Nat.lt_succ_of_le short
  rw [encodeAddr_target inet addr small, List.length_append]
  have two : (portbe port).length = 2 := rfl
  rw [two]
  cases target inet addr small with
  | v4 in4 => simp [ReplyAddr.encode]
  | v6 in6 => simp [ReplyAddr.encode]
  | domain name bounded =>
      simp only [ReplyAddr.encode, List.length_cons]
      omega

/-- The message is the header with the target, and the data behind it. -/
theorem socksMessage_eq
    (inet : Inet) (self : ProxySocks) (buffer : Vector UInt8 headerSize)
    (data : List UInt8) :
    socksMessage inet self buffer data =
      .ok
        ([0, 0, 0] ++
          encodeAddr inet (self.addr.take servnameMaxlen) self.port ++
            data) := by
  have short : (self.addr.take servnameMaxlen).length ≤ servnameMaxlen :=
    List.length_take_le _ _
  have few := length_encodeAddr_le inet short self.port
  generalize encoded :
    encodeAddr inet (self.addr.take servnameMaxlen) self.port = bytes
  rw [encoded] at few
  have size : buffer.toList.length = 512 := Vector.length_toList
  have first :
      append buffer.toList 0 [0, 0, 0] =
        .ok (written [0, 0, 0] buffer.toList, 3) := by
    apply append_front
    rw [size]
    decide
  have behind :
      (written [0, 0, 0] buffer.toList).drop 3 = buffer.toList.drop 3 :=
    List.drop_left' rfl
  have front :
      (written [0, 0, 0] buffer.toList).take 3 = [0, 0, 0] :=
    List.take_left' rfl
  have room : ¬ (buffer.toList.drop 3).length < bytes.length := by
    rw [List.length_drop, size]
    omega
  have header :
      load
          ([0, 0, 0] ++ written bytes (buffer.toList.drop 3)) 0
          (3 + bytes.length) =
        .ok ([0, 0, 0] ++ bytes) := by
    have whole :=
      @load_append UInt8 [] ([0, 0, 0] ++ bytes)
        ((buffer.toList.drop 3).drop bytes.length) 0 (3 + bytes.length)
        rfl (by simp; omega)
    rw [List.nil_append, List.append_assoc] at whole
    exact whole
  rw [socksMessage, first]
  simp only [bind, Except.bind, behind, front, socks5AddrPutBuffer_eq,
    encoded, if_neg room, advance, header, pure, Except.pure]

/-! ## What is received -/

/-- The payload which `socks_recv` takes out of a datagram. -/
def decapsulate (inet : Inet) : List UInt8 → Option (List UInt8)
  | _ :: _ :: frag :: rest =>
      match socks5AddrGet inet rest with
      | none => none
      | some (_, payload) => if frag ≠ 0 then none else some payload
  | _ => none

/-- A datagram carries what is taken out of it. -/
theorem carries_iff (inet : Inet) {bytes payload : List UInt8} :
    Carries bytes payload ↔ decapsulate inet bytes = some payload := by
  constructor
  · rintro ⟨first, second, addr, port, rfl⟩
    simp only [List.cons_append, List.nil_append, decapsulate,
      socks5AddrGet_encode]
    rfl
  · intro taken
    rcases bytes with _ | ⟨first, _ | ⟨second, _ | ⟨frag, rest⟩⟩⟩
    · cases taken
    · cases taken
    · cases taken
    · simp only [decapsulate] at taken
      split at taken
      · cases taken
      · next relay behind read =>
          split at taken
          · cases taken
          · next unfragmented =>
              cases taken
              rcases socks5AddrGet_some read with ⟨addr, split, _⟩
              refine ⟨first, second, addr, relay.port, ?_⟩
              rw [split, not_not.mp unfragmented]
              rfl

/-- Where the payload of a datagram is, and how long it is. -/
theorem load_payload
    {inet : Inet} {rest payload : List UInt8} {relay : RelAddr}
    (read : socks5AddrGet inet rest = some (relay, payload))
    (first second frag : UInt8) (data : List UInt8) :
    payload.length ≤ (first :: second :: frag :: rest).length ∧
      (first :: second :: frag :: rest).length -
          (3 + (rest.length - payload.length)) = payload.length ∧
        load (written (first :: second :: frag :: rest) data)
            (3 + (rest.length - payload.length)) payload.length =
          .ok payload := by
  rcases socks5AddrGet_some read with ⟨addr, split, _⟩
  have begins :
      (first :: second :: frag ::
          (addr.encode ++ portbe relay.port)).length =
        3 + (rest.length - payload.length) := by
    rw [split]
    simp only [List.length_cons, List.length_append]
    omega
  have parts :
      written (first :: second :: frag :: rest) data =
        (first :: second :: frag ::
          (addr.encode ++ portbe relay.port)) ++
          (payload ++
            data.drop (first :: second :: frag :: rest).length) := by
    rw [written, split]
    simp only [List.cons_append, List.append_assoc]
  refine ⟨?_, ?_, ?_⟩
  · rw [split]
    simp only [List.length_cons, List.length_append]
    omega
  · rw [split]
    simp only [List.length_cons, List.length_append]
    omega
  · rw [parts]
    exact load_append begins rfl

/-- One turn of the loop. -/
theorem socksRecvLoop_cons
    (inet : Inet) (failure : Errno) {data : List UInt8}
    {datagram : Datagram} (waiting : List Datagram)
    (room : datagram.bytes.length ≤ data.length) :
    socksRecvLoop inet .udpForward failure data (datagram :: waiting) =
      match decapsulate inet datagram.bytes with
      | none =>
          socksRecvLoop inet .udpForward failure
            (written datagram.bytes data) waiting
      | some payload =>
          .ok
            ⟨.ok payload.length,
              written payload (written datagram.bytes data), waiting⟩ := by
  have whole : datagram.bytes.take data.length = datagram.bytes :=
    List.take_of_length_le room
  have length : (written datagram.bytes data).length = data.length :=
    length_written room
  rw [socksRecvLoop]
  simp only [whole, store_front room, bind, Except.bind, if_true]
  generalize datagram.bytes = bytes at room length ⊢
  have view :
      ((written bytes data).take bytes.length).drop 3 =
        bytes.drop 3 := by
    rw [written, List.take_left]
  rcases bytes with _ | ⟨first, _ | ⟨second, _ | ⟨frag, rest⟩⟩⟩
  · rfl
  · rfl
  · rfl
  · have long : ¬ 3 > (first :: second :: frag :: rest).length := by
      simp only [List.length_cons]
      omega
    have header :
        load (written (first :: second :: frag :: rest) data) 0 3 =
          .ok [first, second, frag] :=
      @load_append UInt8 [] [first, second, frag] _ 0 3 rfl rfl
    rw [if_neg long, header, view]
    simp only [socks5AddrGetBuffer_eq, List.drop_succ_cons,
      List.drop_zero, decapsulate]
    cases read : socks5AddrGet inet rest with
    | none => rfl
    | some found =>
        rcases found with ⟨relay, payload⟩
        simp only [Option.map_some]
        by_cases fragment : frag = 0
        · have kept : ¬ [first, second, frag].getD 2 0 ≠ 0 :=
            not_not.mpr fragment
          rcases load_payload read first second frag data with
            ⟨shorter, count, behind⟩
          have fits :
              payload.length ≤
                (written (first :: second :: frag :: rest) data).length := by
            rw [length]
            exact Nat.le_trans shorter room
          rw [if_neg kept, if_neg (not_not.mpr fragment)]
          simp only [count, behind, store_front fits, pure, Except.pure]
        · have dropped : [first, second, frag].getD 2 0 ≠ 0 := fragment
          rw [if_pos dropped, if_pos fragment]

section Queue

variable {inet : Inet} {failure : Errno} {skipped : List Datagram}

/-- Datagrams which carry nothing are dropped. -/
theorem socksRecvLoop_skip
    (nothing :
      ∀ datagram ∈ skipped, ∀ payload, ¬ Carries datagram.bytes payload)
    {data : List UInt8} (size : data.length = udpPacketMaxlen)
    (waiting : List Datagram) :
    ∃ after,
      after.length = udpPacketMaxlen ∧
        socksRecvLoop inet .udpForward failure data
            (skipped ++ waiting) =
          socksRecvLoop inet .udpForward failure after waiting := by
  induction skipped generalizing data with
  | nil => exact ⟨data, size, rfl⟩
  | cons datagram skipped induction =>
      have small := datagram.small
      have room : datagram.bytes.length ≤ data.length := by
        rw [size, udpPacketMaxlen]
        omega
      have malformed : decapsulate inet datagram.bytes = none := by
        cases taken : decapsulate inet datagram.bytes with
        | none => rfl
        | some payload =>
            exact absurd ((carries_iff inet).mpr taken)
              (nothing datagram List.mem_cons_self payload)
      have next : (written datagram.bytes data).length = udpPacketMaxlen :=
        (length_written room).trans size
      rcases induction
          (fun other member =>
            nothing other (List.mem_cons_of_mem _ member)) next with
        ⟨after, length, same⟩
      refine ⟨after, length, ?_⟩
      rw [List.cons_append, socksRecvLoop_cons inet failure _ room, malformed]
      exact same

/-- The first datagram which carries a payload is received. -/
theorem socksRecvLoop_first
    (nothing :
      ∀ datagram ∈ skipped, ∀ payload, ¬ Carries datagram.bytes payload)
    {data : List UInt8} (size : data.length = udpPacketMaxlen)
    {datagram : Datagram} {payload : List UInt8}
    (carries : Carries datagram.bytes payload)
    (waiting : List Datagram) :
    ∃ received,
      socksRecvLoop inet .udpForward failure data
          (skipped ++ datagram :: waiting) = .ok received ∧
        received.result = .ok payload.length ∧
          received.data.take payload.length = payload ∧
            received.waiting = waiting := by
  rcases socksRecvLoop_skip nothing size (datagram :: waiting) with
    ⟨after, length, same⟩
  have small := datagram.small
  have room : datagram.bytes.length ≤ after.length := by
    rw [length, udpPacketMaxlen]
    omega
  rw [same, socksRecvLoop_cons inet failure waiting room,
    (carries_iff inet).mp carries]
  exact ⟨_, rfl, rfl, List.take_left, rfl⟩

/-- When no datagram carries a payload, the error of the socket is left. -/
theorem socksRecvLoop_none
    (nothing :
      ∀ datagram ∈ skipped, ∀ payload, ¬ Carries datagram.bytes payload)
    {data : List UInt8} (size : data.length = udpPacketMaxlen) :
    ∃ received,
      socksRecvLoop inet .udpForward failure data skipped =
          .ok received ∧
        received.result = .error failure ∧ received.waiting = [] := by
  rcases socksRecvLoop_skip nothing size [] with ⟨after, _, same⟩
  rw [List.append_nil] at same
  rw [same]
  exact ⟨_, rfl, rfl, rfl⟩

end Queue

theorem socksRecv_eq
    {inet : Inet} {self : ProxySocks} (forwarding : self.phase = .forwarding)
    (udp : self.type = .udpForward) (failure : Errno) (data : List UInt8)
    (waiting : List Datagram) :
    socksRecv inet self failure data waiting =
      socksRecvLoop inet .udpForward failure data waiting := by
  rw [socksRecv, forwarding, udp]
  rfl

/--
Over a relay which forwards UDP: what `socks_send` emits is the header with
the target and the payload, and `socks_recv` gives back this payload.  Of any
datagrams which wait, `socks_recv` drops those in front of the first one with
a whole header, a whole address and no fragment, and returns the payload of
that one; if there is none, it drops all and returns the error of the socket.
-/
theorem socks5_udp_encapsulation
    (inet : Inet) {self : ProxySocks}
    (forwarding : self.phase = .forwarding)
    (udp : self.type = .udpForward) (failure : Errno) {data : List UInt8}
    (size : data.length = udpPacketMaxlen) :
    (∀ (buffer : Vector UInt8 headerSize) (payload : List UInt8),
      ∃ message,
        socksSend inet self buffer payload = .ok (.datagram message) ∧
          message =
              [0, 0, 0] ++
                encodeAddr inet (self.addr.take servnameMaxlen)
                  self.port ++ payload ∧
            ∀ small : message.length + 8 ≤ 65535,
              ∃ received,
                socksRecv inet self failure data [⟨message, small⟩] =
                    .ok received ∧
                  received.result = .ok payload.length ∧
                    received.data.take payload.length = payload) ∧
      (∀ (skipped waiting : List Datagram) (datagram : Datagram)
          (payload : List UInt8),
        (∀ other ∈ skipped, ∀ data, ¬ Carries other.bytes data) →
          Carries datagram.bytes payload →
            ∃ received,
              socksRecv inet self failure data
                  (skipped ++ datagram :: waiting) = .ok received ∧
                received.result = .ok payload.length ∧
                  received.data.take payload.length = payload ∧
                    received.waiting = waiting) ∧
        ∀ skipped : List Datagram,
          (∀ other ∈ skipped, ∀ data, ¬ Carries other.bytes data) →
            ∃ received,
              socksRecv inet self failure data skipped = .ok received ∧
                received.result = .error failure ∧
                  received.waiting = [] := by
  constructor
  · intro buffer payload
    refine ⟨_, ?_, rfl, ?_⟩
    · have sending : self.phase ≠ .failed := by
        rw [forwarding]
        decide
      rw [socksSend, if_neg sending, if_neg (not_not.mpr forwarding),
        if_pos udp, socksMessage_eq]
      rfl
    · intro small
      have carries :=
        carries_of_encodeAddr inet
          (List.length_take_le servnameMaxlen self.addr) self.port payload
      have alone :
          ∀ other ∈ ([] : List Datagram), ∀ data,
            ¬ Carries other.bytes data := by
        intro other impossible
        cases impossible
      rcases @socksRecvLoop_first inet failure [] alone data size
          ⟨_, small⟩ payload carries [] with
        ⟨received, same, result, taken, _⟩
      rw [socksRecv_eq forwarding udp]
      exact ⟨received, same, result, taken⟩
  · constructor
    · intro skipped waiting datagram payload nothing carries
      rw [socksRecv_eq forwarding udp]
      exact socksRecvLoop_first nothing size carries waiting
    · intro skipped nothing
      rw [socksRecv_eq forwarding udp]
      exact socksRecvLoop_none nothing size

/-- A relay which forwards to `192.0.2.7`, port 53. -/
def sampleRelay : ProxySocks where
  events := epollin
  addr := ascii "192.0.2.7"
  port := 53
  type := .udpForward
  phase := .forwarding
  hsbuff := []
  relay := none

/-- A fragment which would carry the payload `[9]`. -/
def sampleFragment : Datagram where
  bytes := [0, 0, 1, 1, 192, 0, 2, 7, 0, 53, 9]
  small := by decide

/-- An answer with the payload `[8, 8]`. -/
def sampleAnswer : Datagram where
  bytes := [0, 0, 0, 1, 192, 0, 2, 7, 0, 53, 8, 8]
  small := by decide

/-- The fragment and an empty datagram are dropped. -/
theorem socks5_udp_encapsulation_sample :
    ∃ received,
      socksRecv textInet sampleRelay .eagain
          (List.replicate udpPacketMaxlen 0)
          ([sampleFragment, ⟨[], by decide⟩] ++ [sampleAnswer]) =
            .ok received ∧
        received.result = .ok 2 ∧ received.data.take 2 = [8, 8] ∧
          received.waiting = [] := by
  have nothing :
      ∀ other ∈ [sampleFragment, ⟨[], by decide⟩], ∀ data,
        ¬ Carries other.bytes data := by
    intro other member data
    rw [carries_iff textInet]
    rcases List.mem_cons.mp member with rfl | later
    · intro impossible
      have malformed :
          decapsulate textInet sampleFragment.bytes = none := by
        decide +kernel
      rw [malformed] at impossible
      cases impossible
    · rw [List.mem_singleton.mp later]
      intro impossible
      cases impossible
  have carries : Carries sampleAnswer.bytes [8, 8] := by
    rw [carries_iff textInet]
    decide +kernel
  exact
    (socks5_udp_encapsulation textInet rfl rfl .eagain
      List.length_replicate).2.1 _ [] sampleAnswer [8, 8] nothing carries

end Nsproxy.Core.SocksUdp
