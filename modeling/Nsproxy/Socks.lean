import Mathlib.Tactic.Common
import Nsproxy.Conf
import Nsproxy.Lwip.Opts
import Nsproxy.Skutils

/-!
# The SOCKS5 client

`struct proxy_socks` of `socks.c` with its handshake: the messages, the codec
of addresses, and the two functions which the event loop calls until the
connection forwards or has failed.

Every call to the kernel has an explicit answer.  A `recv` answer is cut to
the requested length, and the empty answer is the end of the stream, also
when nothing was requested.  A function returns the mask with which it calls
`userev`, if it does; it touches nothing after that call.

The handshake buffer is the list of its first `size` bytes.  It is freed when
the connection starts to forward and read by nobody after that.
-/

namespace Nsproxy.Socks

open Nsproxy.Conf
open Nsproxy.Lwip.Opts
open Nsproxy.Skutils

/-- `SOCKS_HS_BUFF`. -/
def socksHsBuff : Nat := 1024

/-- The handshake phases. -/
inductive SocksPhase where
  | failed
  | sendMethod
  | recvMethod
  | sendAuth
  | recvAuth
  | sendRequest
  | recvReply
  | forwarding
deriving DecidableEq, Repr

/-- What the operations of a proxy connection tell apart. -/
def SocksPhase.toPhase : SocksPhase → Phase
  | .failed => .failed
  | .forwarding => .forwarding
  | _ => .handshake

/-- `TCP_FORWARD`, `UDP_FORWARD` and `UDP_ASSOCIATE`. -/
inductive SocksType where
  | tcpForward
  | udpForward
  | udpAssociate
deriving DecidableEq, Repr

/-- `struct reladdr`. -/
structure RelAddr where
  addr : Text
  port : UInt16
deriving DecidableEq, Repr

/-- `struct proxy_socks`. -/
structure ProxySocks where
  events : EventMask
  addr : Text
  port : UInt16
  type : SocksType
  phase : SocksPhase
  hsbuff : List UInt8
  relay : Option RelAddr
deriving DecidableEq, Repr

/-! ## Messages -/

/-- A port in network byte order. -/
def portbe (port : UInt16) : List UInt8 :=
  [UInt8.ofNat (port.toNat / 256), UInt8.ofNat (port.toNat % 256)]

/-- The encoding of `socks5_addr_put`. -/
def encodeAddr (inet : Inet) (addr : Text) (port : UInt16) :
    List UInt8 :=
  match inet.pton4 addr with
  | some in4 => 1 :: in4.toList ++ portbe port
  | none =>
      match inet.pton6 addr with
      | some in6 => 4 :: in6.toList ++ portbe port
      | none =>
          let alen := addr.length % 256
          3 :: UInt8.ofNat alen :: addr.take alen ++ portbe port

/-- `socks5_addr_put`: `none` when the buffer is too small. -/
def socks5AddrPut
    (inet : Inet) (size : Nat) (addr : Text) (port : UInt16) :
    Option (List UInt8) :=
  if size < (encodeAddr inet addr port).length then none
  else some (encodeAddr inet addr port)

/-- `struct socks5hdr`. -/
structure Socks5Hdr where
  ver : UInt8
  cmd : UInt8
  rsv : UInt8
deriving DecidableEq, Repr

/-- `socks5_hdr_get`: the header and the bytes behind it. -/
def socks5HdrGet : List UInt8 → Option (Socks5Hdr × List UInt8)
  | ver :: cmd :: rsv :: rest => some (⟨ver, cmd, rsv⟩, rest)
  | _ => none

/-- The port at the end of `socks5_addr_get`, with what is behind it. -/
def getPort : List UInt8 → Option (UInt16 × List UInt8)
  | high :: low :: rest =>
      some (UInt16.ofNat (high.toNat * 256 + low.toNat), rest)
  | _ => none

/-- The address of `socks5_addr_get`, given its type byte. -/
def getAddr (inet : Inet) (atype : UInt8) (buffer : List UInt8) :
    Option (Text × List UInt8) :=
  if atype = 1 then
    if bounded : 4 ≤ buffer.length then
      some
        (inet.ntop4
          ⟨(buffer.take 4).toArray, by simp [List.length_take, bounded]⟩,
          buffer.drop 4)
    else
      none
  else if atype = 4 then
    if bounded : 16 ≤ buffer.length then
      some
        (inet.ntop6
          ⟨(buffer.take 16).toArray, by simp [List.length_take, bounded]⟩,
          buffer.drop 16)
    else
      none
  else if atype = 3 then
    match buffer with
    | [] => none
    | alen :: rest =>
        if rest.length < alen.toNat then none
        else some (rest.take alen.toNat, rest.drop alen.toNat)
  else
    none

/--
`socks5_addr_get`: the address, the port, and the bytes behind them.  The
text of a domain may contain NUL bytes.
-/
def socks5AddrGet (inet : Inet) :
    List UInt8 → Option (RelAddr × List UInt8)
  | [] => none
  | atype :: buffer =>
      match getAddr inet atype buffer with
      | none => none
      | some (addr, afterAddr) =>
          match getPort afterAddr with
          | none => none
          | some (port, rest) => some (⟨addr, port⟩, rest)

/-- The request which asks for the target. -/
def requestMessage (inet : Inet) (self : ProxySocks) :
    Option (List UInt8) :=
  let cmd : UInt8 := if self.type = .tcpForward then 1 else 3
  match socks5AddrPut inet (socksHsBuff - 3)
      (self.addr.take servnameMaxlen) self.port with
  | none => none
  | some encoded => some ([5, cmd, 0] ++ encoded)

/-- The user name and password message. -/
def authMessage (conf : Nspconf) : List UInt8 :=
  [1, UInt8.ofNat conf.proxyuser.length] ++ conf.proxyuser ++
    [UInt8.ofNat conf.proxypass.length] ++ conf.proxypass

/-- The list of the methods which the client offers. -/
def methodMessage (conf : Nspconf) : List UInt8 :=
  if conf.proxyuser ≠ [] then [5, 2, 0, 2] else [5, 1, 0]

/-- What a sending phase assembles on its first call; `none` asserts. -/
def handshakeMessage
    (conf : Nspconf) (inet : Inet) (self : ProxySocks) :
    Option (List UInt8) :=
  match self.phase with
  | .sendMethod => some (methodMessage conf)
  | .sendAuth => some (authMessage conf)
  | .sendRequest => requestMessage inet self
  | _ => some []

/-! ## The handshake -/

/-- The mask by which a failed handshake is told to the user. -/
def failedEvents : EventMask := epollin ||| epollout ||| epollerr

/-- The label `failed_handshake`. -/
def failHandshake (self : ProxySocks) :
    ProxySocks × Option EventMask :=
  ({ self with phase := .failed }, some failedEvents)

/-- The phase after a message was sent. -/
def sentPhase : SocksPhase → SocksPhase
  | .sendMethod => .recvMethod
  | .sendAuth => .recvAuth
  | .sendRequest => .recvReply
  | phase => phase

/-- The `send` call of `socks_handshake_output` and what follows it. -/
def sendHandshake
    (answer : SendAnswer) (accepted : Bool) (self : ProxySocks) :
    ProxySocks × Option EventMask :=
  match answer with
  | .err errno =>
      if errno = .eagain then (self, none) else failHandshake self
  | .accept more =>
      let rest := self.hsbuff.drop (more + 1)
      if rest ≠ [] then
        ({ self with hsbuff := rest }, none)
      else
        ({ self with
            hsbuff := []
            phase := sentPhase self.phase
            events := skutilsEvctl accepted self.events epollin .upd },
          none)

/-- `socks_handshake_output`. -/
def socksHandshakeOutput
    (conf : Nspconf) (inet : Inet) (answer : SendAnswer) (accepted : Bool)
    (self : ProxySocks) :
    Except Fault (ProxySocks × Option EventMask) :=
  if self.hsbuff = [] then
    match handshakeMessage conf inet self with
    | none => .error .assertion
    | some message =>
        .ok (sendHandshake answer accepted { self with hsbuff := message })
  else
    .ok (sendHandshake answer accepted self)

/-- The end of `socks_handshake_input`, after a finished input step. -/
def finishInput (accepted : Bool) (self : ProxySocks) :
    ProxySocks × Option EventMask :=
  match self.phase with
  | .sendRequest | .sendAuth =>
      ({ self with
          hsbuff := []
          events := skutilsEvctl accepted self.events epollout .upd },
        none)
  | _ =>
      ({ self with
          hsbuff := []
          events :=
            skutilsEvctl accepted self.events (epollout ||| epollin)
              .upd },
        none)

/-- The phase `PHASE_RECV_METHOD` of `socks_handshake_input`. -/
def recvMethod
    (answer : RecvAnswer) (accepted : Bool) (self : ProxySocks) :
    ProxySocks × Option EventMask :=
  match answer with
  | .err errno =>
      if errno = .eagain then (self, none) else failHandshake self
  | .data bytes =>
      match bytes.take (socksHsBuff - self.hsbuff.length) with
      | [] => failHandshake self
      | byte :: more =>
          let next := { self with hsbuff := self.hsbuff ++ byte :: more }
          match next.hsbuff with
          | ver :: method :: rest =>
              if ver ≠ 5 then failHandshake next
              else if method = 0xff then failHandshake next
              else if rest ≠ [] then failHandshake next
              else if method = 2 then
                finishInput accepted { next with phase := .sendAuth }
              else if method = 0 then
                finishInput accepted { next with phase := .sendRequest }
              else failHandshake next
          | _ => (next, none)

/-- The phase `PHASE_RECV_AUTH` of `socks_handshake_input`. -/
def recvAuth
    (answer : RecvAnswer) (accepted : Bool) (self : ProxySocks) :
    ProxySocks × Option EventMask :=
  match answer with
  | .err errno =>
      if errno = .eagain then (self, none) else failHandshake self
  | .data bytes =>
      match bytes.take (socksHsBuff - self.hsbuff.length) with
      | [] => failHandshake self
      | byte :: more =>
          let next := { self with hsbuff := self.hsbuff ++ byte :: more }
          match next.hsbuff with
          | [ver, status] =>
              if ver ≠ 1 ∨ status ≠ 0 then failHandshake next
              else
                finishInput accepted { next with phase := .sendRequest }
          | _ :: _ :: _ :: _ => failHandshake next
          | _ => (next, none)

/-- The reply in a buffer, with the bytes behind it. -/
def parseReply (inet : Inet) (buffer : List UInt8) :
    Option (Socks5Hdr × RelAddr × List UInt8) :=
  match socks5HdrGet buffer with
  | none => none
  | some (hdr, afterHdr) =>
      match socks5AddrGet inet afterHdr with
      | none => none
      | some (addr, rest) => some (hdr, addr, rest)

/--
How many bytes `socks_handshake_input` discards after a look at `peeked`:
those of the reply, or all of them when the reply is not complete.
-/
def replyLength
    (inet : Inet) (self : ProxySocks) (peeked : List UInt8) : Nat :=
  match parseReply inet (self.hsbuff ++ peeked) with
  | none => peeked.length
  | some (_, _, rest) => peeked.length - rest.length

/-- A complete reply: the verdict of the server. -/
def acceptReply
    (accepted : Bool) (hdr : Socks5Hdr) (addr : RelAddr)
    (self : ProxySocks) : ProxySocks × Option EventMask :=
  if hdr.ver ≠ 5 then failHandshake self
  else if hdr.cmd ≠ 0 then failHandshake self
  else
    finishInput accepted
      { self with
        relay :=
          if self.type = .udpAssociate then
            some { addr with addr := cstr addr.addr }
          else
            self.relay
        phase := .forwarding }

/-- The phase `PHASE_RECV_REPLY`, once the kernel showed some bytes. -/
def takeReply
    (inet : Inet) (peeked : List UInt8) (answer : RecvAnswer)
    (accepted : Bool) (self : ProxySocks) :
    ProxySocks × Option EventMask :=
  match answer with
  | .err _ => failHandshake self
  | .data bytes =>
      let wanted := replyLength inet self peeked
      if (bytes.take wanted).length ≠ wanted then
        failHandshake self
      else
        let next := { self with hsbuff := self.hsbuff ++ bytes.take wanted }
        match parseReply inet (self.hsbuff ++ peeked) with
        | none =>
            if next.hsbuff.length = socksHsBuff then failHandshake next
            else (next, none)
        | some (hdr, addr, _) => acceptReply accepted hdr addr next

/-- The phase `PHASE_RECV_REPLY` of `socks_handshake_input`. -/
def recvReply
    (inet : Inet) (peek answer : RecvAnswer) (accepted : Bool)
    (self : ProxySocks) : ProxySocks × Option EventMask :=
  match peek with
  | .err errno =>
      if errno = .eagain then (self, none) else failHandshake self
  | .data bytes =>
      match bytes.take (socksHsBuff - self.hsbuff.length - 1) with
      | [] => failHandshake self
      | byte :: more => takeReply inet (byte :: more) answer accepted self

/--
`socks_handshake_input`; `first` answers the first `recv`, `second` the one
which discards the reply.
-/
def socksHandshakeInput
    (inet : Inet) (first second : RecvAnswer) (accepted : Bool)
    (self : ProxySocks) : ProxySocks × Option EventMask :=
  match self.phase with
  | .recvMethod => recvMethod first accepted self
  | .recvAuth => recvAuth first accepted self
  | .recvReply => recvReply inet first second accepted self
  | _ => finishInput accepted self

/-- The answers of the kernel while a connection shakes hands. -/
structure HandshakeAnswers where
  send : SendAnswer
  recv : RecvAnswer
  recvAgain : RecvAnswer
  epoll : Bool
deriving DecidableEq, Repr

/-- `socks_epcb_events`. -/
def socksEpcbEvents
    (conf : Nspconf) (inet : Inet) (answers : HandshakeAnswers)
    (events : EventMask) (self : ProxySocks) :
    Except Fault (ProxySocks × Option EventMask) :=
  match self.phase with
  | .forwarding => .ok (self, some events)
  | .failed => .ok (self, some failedEvents)
  | .sendMethod | .sendAuth | .sendRequest =>
      socksHandshakeOutput conf inet answers.send answers.epoll self
  | .recvMethod | .recvAuth | .recvReply =>
      .ok
        (socksHandshakeInput inet answers.recv answers.recvAgain
          answers.epoll self)

/-! ## What an event does to a handshake -/

/--
An event during the handshake advances it, finishes it, or fails it; the user
hears of a failure only.
-/
inductive Advances (self : ProxySocks) :
    ProxySocks × Option EventMask → Prop where
  | shakes
      (phase : next.phase.toPhase = .handshake)
      (type : next.type = self.type) :
      Advances self (next, none)
  | forwards
      (phase : next.phase = .forwarding)
      (type : next.type = self.type)
      (relay : self.type = .udpAssociate → next.relay ≠ none) :
      Advances self (next, none)
  | fails
      (phase : next.phase = .failed)
      (type : next.type = self.type) :
      Advances self (next, some failedEvents)

theorem advances_failHandshake
    {self next : ProxySocks} (type : next.type = self.type) :
    Advances self (failHandshake next) :=
  .fails rfl type

/-- The encoded address always fits the handshake buffer. -/
theorem length_encodeAddr
    (inet : Inet) {addr : Text} (short : addr.length ≤ servnameMaxlen)
    (port : UInt16) :
    (encodeAddr inet addr port).length ≤ servnameMaxlen + 4 := by
  have bound : addr.length ≤ 255 := short
  unfold encodeAddr
  split
  · simp [portbe, servnameMaxlen]
  · split
    · simp [portbe, servnameMaxlen]
    · simp [portbe, servnameMaxlen]
      omega

theorem handshakeMessage_some
    (conf : Nspconf) (inet : Inet) (self : ProxySocks) :
    ∃ message, handshakeMessage conf inet self = some message := by
  unfold handshakeMessage
  split
  · exact ⟨_, rfl⟩
  · exact ⟨_, rfl⟩
  · have short :
        (self.addr.take servnameMaxlen).length ≤ servnameMaxlen :=
      List.length_take_le _ _
    have fits := length_encodeAddr inet short self.port
    have room :
        ¬ socksHsBuff - 3 <
          (encodeAddr inet (self.addr.take servnameMaxlen)
            self.port).length := by
      simp only [socksHsBuff, servnameMaxlen] at fits ⊢
      omega
    simp only [requestMessage, socks5AddrPut, if_neg room]
    exact ⟨_, rfl⟩
  · exact ⟨_, rfl⟩

theorem advances_sendHandshake
    {self next : ProxySocks}
    (sending :
      self.phase = .sendMethod ∨ self.phase = .sendAuth ∨
        self.phase = .sendRequest)
    (phase : next.phase = self.phase) (type : next.type = self.type)
    (answer : SendAnswer) (accepted : Bool) :
    Advances self (sendHandshake answer accepted next) := by
  have shaking : next.phase.toPhase = .handshake := by
    rw [phase]
    rcases sending with same | same | same <;> rw [same] <;> rfl
  have sent : (sentPhase next.phase).toPhase = .handshake := by
    rw [phase]
    rcases sending with same | same | same <;> rw [same] <;> rfl
  cases answer with
  | err errno =>
      simp only [sendHandshake]
      split
      · exact .shakes shaking type
      · exact advances_failHandshake type
  | accept more =>
      simp only [sendHandshake]
      split
      · exact .shakes shaking type
      · exact .shakes sent type

theorem advances_socksHandshakeOutput
    (conf : Nspconf) (inet : Inet) (answer : SendAnswer)
    (accepted : Bool) {self : ProxySocks}
    (sending :
      self.phase = .sendMethod ∨ self.phase = .sendAuth ∨
        self.phase = .sendRequest) :
    ∃ result,
      socksHandshakeOutput conf inet answer accepted self =
          .ok result ∧
        Advances self result := by
  rcases handshakeMessage_some conf inet self with ⟨message, assembled⟩
  simp only [socksHandshakeOutput, assembled]
  split
  · refine ⟨_, rfl, ?_⟩
    apply advances_sendHandshake sending
    · rfl
    · rfl
  · refine ⟨_, rfl, ?_⟩
    apply advances_sendHandshake sending
    · rfl
    · rfl

theorem advances_recvMethod
    (answer : RecvAnswer) (accepted : Bool) {self : ProxySocks}
    (phase : self.phase = .recvMethod) :
    Advances self (recvMethod answer accepted self) := by
  have shaking : self.phase.toPhase = .handshake := by
    rw [phase]
    rfl
  cases answer with
  | err errno =>
      simp only [recvMethod]
      split
      · exact .shakes shaking rfl
      · exact advances_failHandshake rfl
  | data bytes =>
      simp only [recvMethod]
      split
      · exact advances_failHandshake rfl
      · split
        · split
          · exact advances_failHandshake rfl
          · split
            · exact advances_failHandshake rfl
            · split
              · exact advances_failHandshake rfl
              · split
                · exact .shakes rfl rfl
                · split
                  · exact .shakes rfl rfl
                  · exact advances_failHandshake rfl
        · exact .shakes shaking rfl

theorem advances_recvAuth
    (answer : RecvAnswer) (accepted : Bool) {self : ProxySocks}
    (phase : self.phase = .recvAuth) :
    Advances self (recvAuth answer accepted self) := by
  have shaking : self.phase.toPhase = .handshake := by
    rw [phase]
    rfl
  cases answer with
  | err errno =>
      simp only [recvAuth]
      split
      · exact .shakes shaking rfl
      · exact advances_failHandshake rfl
  | data bytes =>
      simp only [recvAuth]
      split
      · exact advances_failHandshake rfl
      · split
        · split
          · exact advances_failHandshake rfl
          · exact .shakes rfl rfl
        · exact advances_failHandshake rfl
        · exact .shakes shaking rfl

theorem advances_acceptReply
    (accepted : Bool) (hdr : Socks5Hdr) (addr : RelAddr)
    {self next : ProxySocks} (type : next.type = self.type) :
    Advances self (acceptReply accepted hdr addr next) := by
  simp only [acceptReply]
  split
  · exact advances_failHandshake type
  · split
    · exact advances_failHandshake type
    · refine .forwards rfl type ?_
      intro associate
      simp [type.trans associate]

theorem advances_recvReply
    (inet : Inet) (peek answer : RecvAnswer) (accepted : Bool)
    {self : ProxySocks} (phase : self.phase = .recvReply) :
    Advances self (recvReply inet peek answer accepted self) := by
  have shaking : self.phase.toPhase = .handshake := by
    rw [phase]
    rfl
  cases peek with
  | err errno =>
      simp only [recvReply]
      split
      · exact .shakes shaking rfl
      · exact advances_failHandshake rfl
  | data bytes =>
      simp only [recvReply]
      split
      · exact advances_failHandshake rfl
      · cases answer with
        | err errno =>
            exact advances_failHandshake rfl
        | data again =>
            simp only [takeReply]
            split
            · exact advances_failHandshake rfl
            · split
              · split
                · exact advances_failHandshake rfl
                · exact .shakes shaking rfl
              · exact advances_acceptReply accepted _ _ rfl

/-- Every event of a handshake is handled, and no assertion fails. -/
theorem advances_socksEpcbEvents
    (conf : Nspconf) (inet : Inet) (answers : HandshakeAnswers)
    (events : EventMask) {self : ProxySocks}
    (shaking : self.phase.toPhase = .handshake) :
    ∃ result,
      socksEpcbEvents conf inet answers events self = .ok result ∧
        Advances self result := by
  cases phase : self.phase with
  | failed =>
      rw [phase] at shaking
      cases shaking
  | forwarding =>
      rw [phase] at shaking
      cases shaking
  | sendMethod =>
      simp only [socksEpcbEvents, phase]
      exact advances_socksHandshakeOutput conf inet _ _ (.inl phase)
  | sendAuth =>
      simp only [socksEpcbEvents, phase]
      exact advances_socksHandshakeOutput conf inet _ _
        (.inr (.inl phase))
  | sendRequest =>
      simp only [socksEpcbEvents, phase]
      exact advances_socksHandshakeOutput conf inet _ _
        (.inr (.inr phase))
  | recvMethod =>
      simp only [socksEpcbEvents, socksHandshakeInput, phase]
      exact ⟨_, rfl, advances_recvMethod _ _ phase⟩
  | recvAuth =>
      simp only [socksEpcbEvents, socksHandshakeInput, phase]
      exact ⟨_, rfl, advances_recvAuth _ _ phase⟩
  | recvReply =>
      simp only [socksEpcbEvents, socksHandshakeInput, phase]
      exact ⟨_, rfl, advances_recvReply inet _ _ _ phase⟩

/-! ## Creation -/

/--
`socks_create_impl` for a connection which shakes hands; `connected` is the
outcome of `skutils_connect`.
-/
def socksCreate
    (type : SocksType) (addr : Text) (port : UInt16)
    (connected accepted : Bool) : Option ProxySocks :=
  if servnameMaxlen < addr.length then
    none
  else if connected then
    some
      { events := skutilsEvctl accepted 0#32 epollout .upd
        addr := addr
        port := port
        type := type
        phase := .sendMethod
        hsbuff := []
        relay := none }
  else
    none

/-- `socks_tcp_create`. -/
def socksTcpCreate
    (addr : Text) (port : UInt16) (connected accepted : Bool) :
    Option ProxySocks :=
  socksCreate .tcpForward addr port connected accepted

/-- `socks_assoc_create`. -/
def socksAssocCreate (connected accepted : Bool) : Option ProxySocks :=
  socksCreate .udpAssociate (ascii "0.0.0.0") 0 connected accepted

/-- `socks_udp_create`: a socket connected to the relay. -/
def socksUdpCreate
    (assoc : ProxySocks) (addr : Text) (port : UInt16)
    (connected accepted : Bool) : Option ProxySocks :=
  if assoc.phase ≠ .forwarding ∨ assoc.relay = none then
    none
  else if servnameMaxlen < addr.length then
    none
  else if connected then
    some
      { events :=
          skutilsEvctl accepted 0#32 (epollout ||| epollin) .upd
        addr := addr
        port := port
        type := .udpForward
        phase := .forwarding
        hsbuff := []
        relay := none }
  else
    none

end Nsproxy.Socks
