import Mathlib.Tactic.Common
import Nsproxy.Conf
import Nsproxy.Skutils
import Nsproxy.Socks

/-!
# The HTTP CONNECT client

`struct proxy_http` of `http.c` with its handshake: the request, with its
credentials in base64, and the reader of the response head.

The kernel answers as it does for the SOCKS5 client.  The response head is
read as a C string: `strstr` and `sscanf` see nothing behind a NUL byte.
`%d` reads a number as glibc does, by `strtol` and a conversion to `int`.
-/

namespace Nsproxy.Http

open Nsproxy.Conf
open Nsproxy.Skutils
open Nsproxy.Socks

/-- `HTTP_HS_BUFF`. -/
def httpHsBuff : Nat := 4096

/-- The handshake phases. -/
inductive HttpPhase where
  | failed
  | sendRequest
  | recvReply
  | forwarding
deriving DecidableEq, Repr

/-- What the operations of a proxy connection tell apart. -/
def HttpPhase.toPhase : HttpPhase → Phase
  | .failed => .failed
  | .forwarding => .forwarding
  | _ => .handshake

/-- `struct proxy_http`. -/
structure ProxyHttp where
  events : EventMask
  addr : Text
  port : UInt16
  phase : HttpPhase
  hsbuff : List UInt8
deriving DecidableEq, Repr

/-! ## The request -/

/-- `base64_chars`. -/
def base64Chars : List UInt8 :=
  ascii
    "ABCDEFGHIJKLMNOPQRSTUVWXYZabcdefghijklmnopqrstuvwxyz0123456789+/"

/-- The character of a six-bit number. -/
def base64Char (index : UInt8) : UInt8 :=
  base64Chars.getD index.toNat 0

/-- The loop of `base64_encode`, three bytes at a time. -/
def base64Groups : List UInt8 → List UInt8
  | [] => []
  | [a] =>
      [base64Char ((a &&& 0xfc) >>> 2),
        base64Char ((a &&& 0x03) <<< 4),
        0x3d, 0x3d]
  | [a, b] =>
      [base64Char ((a &&& 0xfc) >>> 2),
        base64Char (((a &&& 0x03) <<< 4) ||| (b >>> 4)),
        base64Char ((b &&& 0x0f) <<< 2),
        0x3d]
  | a :: b :: c :: rest =>
      base64Char ((a &&& 0xfc) >>> 2) ::
        base64Char (((a &&& 0x03) <<< 4) ||| (b >>> 4)) ::
        base64Char (((b &&& 0x0f) <<< 2) ||| (c >>> 6)) ::
        base64Char (c &&& 0x3f) :: base64Groups rest

/--
`base64_encode`: the characters before the NUL, or `none` when the output
does not fit.
-/
def base64Encode (outlen : Nat) (binary : List UInt8) :
    Option (List UInt8) :=
  if (2 ^ 64 - 1 - 1) / 4 * 3 < binary.length ∨
      outlen < (binary.length + 2) / 3 * 4 + 1 then
    none
  else
    some (base64Groups binary)

/-- `AUTH_MAXLEN`. -/
def authMaxlen : Nat := 255

/-- The credentials, in base64. -/
def basicToken (conf : Nspconf) : List UInt8 :=
  let credentials :=
    (conf.proxyuser ++ [0x3a] ++ conf.proxypass).take (authMaxlen * 2 + 1)
  (base64Encode ((authMaxlen * 2 + 1 + 2) / 3 * 4 + 1) credentials).getD []

/-- `%u`: the decimal digits of a number. -/
def decimal (number : Nat) : Text :=
  (Nat.toDigits 10 number).map fun digit => UInt8.ofNat digit.toNat

/-- The end of a line. -/
def crlf : Text := [0x0d, 0x0a]

/-- The authority of the target; an IPv6 address is put in brackets. -/
def authority (self : ProxyHttp) : Text :=
  if 0x3a ∈ self.addr then
    ascii "[" ++ self.addr ++ ascii "]" ++ ascii ":" ++
      decimal self.port.toNat
  else
    self.addr ++ ascii ":" ++ decimal self.port.toNat

/-- The request which `http_handshake_output` assembles. -/
def httpRequest (conf : Nspconf) (self : ProxyHttp) : Text :=
  ascii "CONNECT " ++ authority self ++ ascii " HTTP/1.1" ++ crlf ++
    ascii "Host: " ++ authority self ++ crlf ++
    (if conf.proxyuser ≠ [] then
      ascii "Proxy-Authorization: Basic " ++ basicToken conf ++ crlf
    else
      []) ++
    crlf

/-! ## The response -/

/-- `strstr(text, "\r\n\r\n")`: the length up to the end of the match. -/
def strstrCrlf2 : List UInt8 → Option Nat
  | [] => none
  | byte :: rest =>
      if (byte :: rest).take 4 = crlf ++ crlf then
        some 4
      else
        (strstrCrlf2 rest).map (· + 1)

/-- `isspace` in the C locale. -/
def isspace (byte : UInt8) : Bool :=
  byte == 0x20 || (0x09 ≤ byte && byte ≤ 0x0d)

/-- `isdigit`. -/
def isdigit (byte : UInt8) : Bool := 0x30 ≤ byte && byte ≤ 0x39

/-- The number which a list of digits denotes. -/
def digitsValue (digits : List UInt8) : Nat :=
  digits.foldl (fun value digit => value * 10 + (digit.toNat - 0x30)) 0

/-- The conversion of a `long` to an `int`. -/
def toInt32 (value : Int) : Int := Int.bmod value (2 ^ 32)

/-- `strtol` clamps to the range of `long`. -/
def clampLong (value : Int) : Int :=
  max (-2 ^ 63) (min value (2 ^ 63 - 1))

/-- `%d`: white space, a sign, at least one digit. -/
def scanInt (text : Text) : Option Int :=
  let digitsOf (text : Text) : Option Nat :=
    match text.takeWhile isdigit with
    | [] => none
    | digit :: more => some (digitsValue (digit :: more))
  match text.dropWhile isspace with
  | 0x2d :: rest =>
      (digitsOf rest).map fun value =>
        toInt32 (clampLong (-(value : Int)))
  | 0x2b :: rest =>
      (digitsOf rest).map fun value => toInt32 (clampLong value)
  | rest => (digitsOf rest).map fun value => toInt32 (clampLong value)

/-- `sscanf(text, "HTTP/1.%c %d", &vermin, &code)`, if it returns 2. -/
def scanResponse (text : Text) : Option Int :=
  if text.take 7 = ascii "HTTP/1." then
    match text.drop 7 with
    | [] => none
    | _ :: rest => scanInt rest
  else
    none

/-! ## The handshake -/

/-- The label `failed_handshake`. -/
def failHttp (self : ProxyHttp) : ProxyHttp × Option EventMask :=
  ({ self with phase := .failed }, some failedEvents)

/--
A complete response head.  `sscanf` reads the buffer up to its NUL, which
stands behind all bytes that the kernel showed.
-/
def acceptResponse
    (shown : List UInt8) (accepted : Bool) (self : ProxyHttp) :
    ProxyHttp × Option EventMask :=
  match scanResponse (cstr shown) with
  | none => failHttp self
  | some code =>
      if code ≠ 200 then
        failHttp self
      else
        ({ self with
            phase := .forwarding
            events :=
              skutilsEvctl accepted self.events (epollout ||| epollin)
                .upd
            hsbuff := [] },
          none)

/-- The end of the response head in the buffer, if it is complete. -/
def responseEnd (self : ProxyHttp) (peeked : List UInt8) : Option Nat :=
  strstrCrlf2 (cstr (self.hsbuff ++ peeked))

/--
How many bytes `http_handshake_input` discards after a look at `peeked`:
those of the head, or all of them when the head is not complete.
-/
def responseLength (self : ProxyHttp) (peeked : List UInt8) : Nat :=
  match responseEnd self peeked with
  | some ends => ends - self.hsbuff.length
  | none => peeked.length

/-- The response head in the buffer, after the kernel showed some bytes. -/
def takeResponse
    (peeked : List UInt8) (answer : RecvAnswer) (accepted : Bool)
    (self : ProxyHttp) : ProxyHttp × Option EventMask :=
  let ndiscard := responseLength self peeked
  match answer with
  | .err _ => failHttp self
  | .data bytes =>
      if (bytes.take ndiscard).length ≠ ndiscard then
        failHttp self
      else
        let next :=
          { self with hsbuff := self.hsbuff ++ bytes.take ndiscard }
        if responseEnd self peeked = none then
          if next.hsbuff.length = httpHsBuff - 1 then failHttp next
          else (next, none)
        else
          acceptResponse (next.hsbuff ++ peeked.drop ndiscard) accepted
            next

/--
`http_handshake_input`; `first` answers the `recv` which only looks,
`second` the one which discards.
-/
def httpHandshakeInput
    (first second : RecvAnswer) (accepted : Bool) (self : ProxyHttp) :
    ProxyHttp × Option EventMask :=
  match first with
  | .err errno =>
      if errno = .eagain then (self, none) else failHttp self
  | .data bytes =>
      match bytes.take (httpHsBuff - self.hsbuff.length - 1) with
      | [] => failHttp self
      | byte :: more => takeResponse (byte :: more) second accepted self

/-- The `send` call of `http_handshake_output` and what follows it. -/
def sendRequest
    (answer : SendAnswer) (accepted : Bool) (self : ProxyHttp) :
    ProxyHttp × Option EventMask :=
  match answer with
  | .err errno =>
      if errno = .eagain then (self, none) else failHttp self
  | .accept more =>
      let rest := self.hsbuff.drop (more + 1)
      if rest ≠ [] then
        ({ self with hsbuff := rest }, none)
      else
        ({ self with
            hsbuff := []
            phase := .recvReply
            events := skutilsEvctl accepted self.events epollin .upd },
          none)

/-- `http_handshake_output`. -/
def httpHandshakeOutput
    (conf : Nspconf) (answer : SendAnswer) (accepted : Bool)
    (self : ProxyHttp) : ProxyHttp × Option EventMask :=
  if self.hsbuff = [] then
    sendRequest answer accepted
      { self with hsbuff := httpRequest conf self }
  else
    sendRequest answer accepted self

/-- `http_epcb_events`. -/
def httpEpcbEvents
    (conf : Nspconf) (answers : HandshakeAnswers) (events : EventMask)
    (self : ProxyHttp) : ProxyHttp × Option EventMask :=
  match self.phase with
  | .forwarding => (self, some events)
  | .failed => (self, some failedEvents)
  | .sendRequest =>
      httpHandshakeOutput conf answers.send answers.epoll self
  | .recvReply =>
      httpHandshakeInput answers.recv answers.recvAgain answers.epoll self

/-! ## What an event does to a handshake -/

/--
An event during the handshake advances it, finishes it, or fails it; the user
hears of a failure only.
-/
inductive Advances : ProxyHttp × Option EventMask → Prop where
  | shakes (phase : next.phase.toPhase = .handshake) :
      Advances (next, none)
  | forwards (phase : next.phase = .forwarding) :
      Advances (next, none)
  | fails (phase : next.phase = .failed) :
      Advances (next, some failedEvents)

theorem advances_failHttp (self : ProxyHttp) :
    Advances (failHttp self) :=
  .fails rfl

theorem advances_sendRequest
    (answer : SendAnswer) (accepted : Bool) {self : ProxyHttp}
    (phase : self.phase = .sendRequest) :
    Advances (sendRequest answer accepted self) := by
  have shaking : self.phase.toPhase = .handshake := by
    rw [phase]
    rfl
  cases answer with
  | err errno =>
      simp only [sendRequest]
      split
      · exact .shakes shaking
      · exact advances_failHttp self
  | accept more =>
      simp only [sendRequest]
      split
      · exact .shakes shaking
      · exact .shakes rfl

theorem advances_httpHandshakeOutput
    (conf : Nspconf) (answer : SendAnswer) (accepted : Bool)
    {self : ProxyHttp} (phase : self.phase = .sendRequest) :
    Advances (httpHandshakeOutput conf answer accepted self) := by
  simp only [httpHandshakeOutput]
  split
  · exact advances_sendRequest answer accepted phase
  · exact advances_sendRequest answer accepted phase

theorem advances_acceptResponse
    (shown : List UInt8) (accepted : Bool) (self : ProxyHttp) :
    Advances (acceptResponse shown accepted self) := by
  simp only [acceptResponse]
  split
  · exact advances_failHttp self
  · split
    · exact advances_failHttp self
    · exact .forwards rfl

theorem advances_httpHandshakeInput
    (first second : RecvAnswer) (accepted : Bool) {self : ProxyHttp}
    (phase : self.phase = .recvReply) :
    Advances (httpHandshakeInput first second accepted self) := by
  have shaking : self.phase.toPhase = .handshake := by
    rw [phase]
    rfl
  cases first with
  | err errno =>
      simp only [httpHandshakeInput]
      split
      · exact .shakes shaking
      · exact advances_failHttp self
  | data bytes =>
      simp only [httpHandshakeInput]
      split
      · exact advances_failHttp self
      · cases second with
        | err errno =>
            exact advances_failHttp self
        | data again =>
            simp only [takeResponse]
            split
            · exact advances_failHttp self
            · split
              · split
                · exact advances_failHttp _
                · exact .shakes shaking
              · exact advances_acceptResponse _ accepted _

/-- Every event of a handshake is handled in one of the listed ways. -/
theorem advances_httpEpcbEvents
    (conf : Nspconf) (answers : HandshakeAnswers) (events : EventMask)
    {self : ProxyHttp} (shaking : self.phase.toPhase = .handshake) :
    Advances (httpEpcbEvents conf answers events self) := by
  cases phase : self.phase with
  | failed =>
      rw [phase] at shaking
      cases shaking
  | forwarding =>
      rw [phase] at shaking
      cases shaking
  | sendRequest =>
      simp only [httpEpcbEvents, phase]
      exact advances_httpHandshakeOutput conf _ _ phase
  | recvReply =>
      simp only [httpEpcbEvents, phase]
      exact advances_httpHandshakeInput _ _ _ phase

/-! ## Creation -/

/-- `http_tcp_create`. -/
def httpTcpCreate
    (addr : Text) (port : UInt16) (connected accepted : Bool) :
    Option ProxyHttp :=
  if servnameMaxlen < addr.length then
    none
  else if connected then
    some
      { events := skutilsEvctl accepted 0#32 epollout .upd
        addr := addr
        port := port
        phase := .sendRequest
        hsbuff := [] }
  else
    none

end Nsproxy.Http
