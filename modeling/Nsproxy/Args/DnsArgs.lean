import Mathlib.Tactic.Common
import Nsproxy.Args.CidrArgs
import Nsproxy.Args.Strtol
import Nsproxy.Conf
import Nsproxy.Core.CidrTable
import Nsproxy.Lib.CString

/-!
# The nameserver in the arguments

The part of `main` which reads the argument of `-d`: the word `off`, or a
scheme, an address and a port.  `Denotes` is the notation which the manual
describes; an IPv6 address stands in brackets.

The function finds three positions in the text behind the scheme and then
checks what is between them.  Its test of the byte behind a closing bracket
asks for two values at once and cannot be passed, so no address in brackets is
accepted.  Apart from these the function accepts exactly the notation.
-/

namespace Nsproxy.Args.DnsArgs

open Nsproxy.Args.CidrArgs (colon)
open Nsproxy.Args.Strtol
open Nsproxy.Conf
open Nsproxy.Core.CidrTable (sampleProcess)
open Nsproxy.Http
open Nsproxy.Lib.CString

/-! ## The function -/

def lbracket : UInt8 := 0x5b
def rbracket : UInt8 := 0x5d

/-- The line on `stderr` before the process ends. -/
def complaint (reason : String) : Text :=
  ascii "nsproxy: " ++ ascii reason ++ [0x0a]

/-- The pointers `ipbegin`, `ipend` and `sep`, as offsets. -/
structure Markers where
  ipbegin : Nat
  ipend : Nat
  sep : Option Nat

/-- The byte of a C string at an offset, the NUL at its end. -/
def byteAt (text : Text) (offset : Nat) : UInt8 := text.getD offset 0

/-- Find the address in the text behind the scheme. -/
def findMarkers (sv : Text) : Except Text Markers :=
  if byteAt sv 0 = lbracket then
    match strchr (sv.drop 1) rbracket with
    | none => .error (complaint "Bad DNS server address")
    | some offset =>
        let ipend := 1 + offset
        if byteAt sv (ipend + 1) ≠ 0 ∨ byteAt sv (ipend + 1) ≠ colon then
          .error (complaint "Bad DNS server address")
        else
          .ok
            { ipbegin := 1
              ipend := ipend
              sep :=
                (strchr (sv.drop (ipend + 1)) colon).map
                  (ipend + 1 + ·) }
  else
    let sep := strchr sv colon
    if sep ≠ strrchr sv colon then
      .error (complaint "IPv6 DNS must be enclosed in []")
    else
      .ok { ipbegin := 0, ipend := sep.getD sv.length, sep := sep }

/-- The port behind the separator. -/
def parsePort (sv : Text) : Option Nat → Except Text UInt16
  | none => .ok 53
  | some sep =>
      let parsed := strtol (sv.drop (sep + 1))
      if parsed.1 ≤ 0 ∨ 65535 < parsed.1 ∨ parsed.2 ≠ [] then
        .error (complaint "Bad DNS server port")
      else
        .ok (UInt16.ofNat parsed.1.toNat)

/-- The address and the port in the text behind the scheme. -/
def parseServer (sv : Text) : Except Text (Text × UInt16) :=
  match findMarkers sv with
  | .error message => .error message
  | .ok markers =>
      let iplen := markers.ipend - markers.ipbegin
      if iplen = 0 ∨ servnameMaxlen < iplen then
        .error (complaint "Bad DNS server address")
      else
        match parsePort sv markers.sep with
        | .error message => .error message
        | .ok port => .ok ((sv.drop markers.ipbegin).take iplen, port)

def tcpScheme : Text := ascii "tcp://"
def udpScheme : Text := ascii "udp://"

/-- The argument of `-d`; an error ends the process. -/
def parseDns (conf : Nspconf) (dns : Text) : Except Text Nspconf :=
  if dns = ascii "off" then
    .ok { conf with dnstype := .off }
  else if tcpScheme.isPrefixOf dns || udpScheme.isPrefixOf dns then
    match parseServer (dns.drop tcpScheme.length) with
    | .error message => .error message
    | .ok (server, port) =>
        .ok
          { conf with
            dnssrv := server
            dnsport := port
            dnstype := if byteAt dns 0 = 0x74 then .tcp else .udp }
  else
    .error (complaint "unsupported dns server address.")

/-! ## The notation -/

/-- The address of a server, in brackets if it is an IPv6 address. -/
inductive Host : Text → Text → Prop where
  | plain
      (single : colon ∉ server)
      (bare : byteAt server 0 ≠ lbracket) :
      Host server server
  | bracketed
      (closed : rbracket ∉ server) :
      Host (lbracket :: (server ++ [rbracket])) server

/-- The port behind an address, which may be left out. -/
inductive Port : Text → UInt16 → Prop where
  | standard : Port [] 53
  | given
      (decimal : Decimal number value)
      (least : 0 < value) (most : value ≤ 65535) :
      Port (colon :: number) (UInt16.ofNat value.toNat)

/-- A server: an address of 1 to 255 bytes, and a port. -/
inductive Server : Text → Text → UInt16 → Prop where
  | mk
      (host : Host text server)
      (named : server ≠ []) (short : server.length ≤ servnameMaxlen)
      (port : Port tail number) :
      Server (text ++ tail) server number

/-- What the argument asks for. -/
inductive Redirection where
  | off
  | server (type : DnsType) (dnssrv : Text) (dnsport : UInt16)

/-- The configuration with this redirection. -/
def Redirection.apply (conf : Nspconf) : Redirection → Nspconf
  | .off => { conf with dnstype := .off }
  | .server type dnssrv dnsport =>
      { conf with dnssrv := dnssrv, dnsport := dnsport, dnstype := type }

/-- What stands in front of a server. -/
inductive Scheme : Text → DnsType → Prop where
  | tcp : Scheme tcpScheme .tcp
  | udp : Scheme udpScheme .udp

/-- The argument is the notation of the redirection. -/
inductive Denotes : Text → Redirection → Prop where
  | off : Denotes (ascii "off") .off
  | server
      (scheme : Scheme front type)
      (named : Server text dnssrv dnsport) :
      Denotes (front ++ text) (.server type dnssrv dnsport)

/--
The redirection which the argument denotes is configured; an argument which
denotes none is rejected.
-/
def Correct (conf : Nspconf) (dns : Text) : Prop :=
  (∀ redirection,
    Denotes dns redirection →
      parseDns conf dns = .ok (redirection.apply conf)) ∧
    ((∀ redirection, ¬ Denotes dns redirection) →
      ∃ message, parseDns conf dns = .error message)

/-- The text is an address in brackets, with a port or without. -/
def Bracketed (text : Text) : Prop :=
  ∃ server tail number,
    text = lbracket :: (server ++ [rbracket]) ++ tail ∧
      rbracket ∉ server ∧ server ≠ [] ∧
        server.length ≤ servnameMaxlen ∧ Port tail number

/-! ## Which servers are accepted -/

theorem byteAt_append
    {front : Text} (filled : front ≠ []) (rest : Text) :
    byteAt (front ++ rest) 0 = byteAt front 0 := by
  cases front with
  | nil => exact absurd rfl filled
  | cons first others => rfl

/-- No byte is both values which the test behind the bracket asks for. -/
theorem parseServer_bracket
    {text : Text} (opened : byteAt text 0 = lbracket) :
    ∃ message, parseServer text = .error message := by
  simp only [parseServer, findMarkers, if_pos opened]
  cases strchr (text.drop 1) rbracket with
  | none =>
      exact ⟨_, rfl⟩
  | some offset =>
      have blocked :
          byteAt text (1 + offset + 1) ≠ 0 ∨
            byteAt text (1 + offset + 1) ≠ colon := by
        by_cases ended : byteAt text (1 + offset + 1) = 0
        · rw [ended]
          exact .inr (by decide)
        · exact .inl ended
      simp only [if_pos blocked]
      exact ⟨_, rfl⟩

theorem parsePort_given
    {front number : Text} {value : Int} (decimal : Decimal number value)
    (least : 0 < value) (most : value ≤ 65535) :
    parsePort (front ++ colon :: number) (some front.length) =
      .ok (UInt16.ofNat value.toNat) := by
  have behind :
      (front ++ colon :: number).drop (front.length + 1) = number := by
    rw [← List.drop_drop, List.drop_left]
    rfl
  have clamped : clampLong value = value := by
    rw [clampLong]
    omega
  simp only [parsePort, behind, strtol_decimal decimal, clamped]
  rw [if_neg (by simp; omega)]

/-- What is accepted as a port is the number behind the separator. -/
theorem decimal_of_parsePort
    {front number : Text} {port : UInt16}
    (parsed :
      parsePort (front ++ colon :: number) (some front.length) =
        .ok port) :
    Port (colon :: number) port := by
  have behind :
      (front ++ colon :: number).drop (front.length + 1) = number := by
    rw [← List.drop_drop, List.drop_left]
    rfl
  simp only [parsePort, behind] at parsed
  split at parsed
  · cases parsed
  · next passed =>
      simp only [not_or, not_le, not_lt, ne_eq, not_not] at passed
      have some_byte : number ≠ [] := by
        rintro rfl
        exact absurd passed.1 (by decide)
      rcases decimal_of_strtol some_byte passed.2.2 with
        ⟨value, decimal⟩
      rw [strtol_decimal decimal] at parsed passed
      have same : clampLong value = value := by
        rw [clampLong] at passed ⊢
        omega
      simp only [same, Except.ok.injEq] at parsed passed
      rw [← parsed]
      exact .given decimal passed.1 passed.2.1

theorem colon_not_mem
    {number : Text} {value : Int} (decimal : Decimal number value) :
    colon ∉ number := by
  rcases decimal.parts with
    ⟨blanks, sign, factor, digits, rfl, blank, signed, _, all, _⟩
  intro member
  rcases List.mem_append.mp member with early | late
  · have visible := blank colon early
    revert visible
    decide
  · rcases List.mem_append.mp late with middle | last
    · cases signed with
      | none => cases middle
      | plus => exact absurd (List.mem_singleton.mp middle) (by decide)
      | minus => exact absurd (List.mem_singleton.mp middle) (by decide)
    · have digit := all colon last
      revert digit
      decide

/-- A server without brackets is accepted. -/
theorem parseServer_of_server
    {text server : Text} {port : UInt16}
    (named : Server text server port) (bare : byteAt text 0 ≠ lbracket) :
    parseServer text = .ok (server, port) := by
  cases named with
  | mk host filled short behind =>
      cases host with
      | bracketed closed =>
          exact absurd rfl bare
      | plain single front =>
          have sized :
              ¬ (server.length = 0 ∨ servnameMaxlen < server.length) := by
            rw [not_or, not_lt]
            exact ⟨fun empty => filled (List.length_eq_zero_iff.mp empty),
              short⟩
          cases behind with
          | standard =>
              rw [List.append_nil] at bare ⊢
              have absent := strchr_none.mpr single
              simp only [parseServer, findMarkers, if_neg bare, absent,
                strrchr_of_not_mem single, ne_eq, not_true_eq_false,
                if_false, Option.getD_none, Nat.sub_zero, if_neg sized,
                parsePort, List.drop_zero, List.take_length]
          | given decimal least most =>
              have first := strchr_append single
              have last := strrchr_append server (colon_not_mem decimal)
              simp only [parseServer, findMarkers, if_neg bare, first,
                last, ne_eq, not_true_eq_false, if_false,
                Option.getD_some, Nat.sub_zero, if_neg sized,
                parsePort_given decimal least most, List.drop_zero,
                List.take_left]

/-- What is accepted is the notation of a server. -/
theorem server_of_parseServer
    {text server : Text} {port : UInt16}
    (parsed : parseServer text = .ok (server, port)) :
    Server text server port := by
  by_cases opened : byteAt text 0 = lbracket
  · rcases parseServer_bracket opened with ⟨message, rejected⟩
    rw [parsed] at rejected
    cases rejected
  · simp only [parseServer, findMarkers, if_neg opened] at parsed
    cases found : strchr text colon with
    | none =>
        have single := strchr_none.mp found
        simp only [found, strrchr_of_not_mem single, ne_eq,
          not_true_eq_false, if_false, Option.getD_none, Nat.sub_zero,
          List.drop_zero, List.take_length, parsePort] at parsed
        split at parsed
        · cases parsed
        · next sized =>
            simp only [not_or, not_lt] at sized
            simp only [Except.ok.injEq, Prod.mk.injEq] at parsed
            rcases parsed with ⟨rfl, rfl⟩
            have filled : text ≠ [] := by
              rintro rfl
              exact sized.1 rfl
            have whole :=
              Server.mk (.plain single opened) filled sized.2 .standard
            rw [List.append_nil] at whole
            exact whole
    | some offset =>
        rcases strchr_some found with ⟨front, number, rfl, single, rfl⟩
        simp only [found] at parsed
        split at parsed
        · cases parsed
        · next markers marked =>
            split at marked
            · cases marked
            · cases marked
              simp only [Option.getD_some, Nat.sub_zero, List.drop_zero,
                List.take_left] at parsed
              split at parsed
              · cases parsed
              · next sized =>
                  simp only [not_or, not_lt] at sized
                  split at parsed
                  · cases parsed
                  · next given accepted =>
                      simp only [Except.ok.injEq, Prod.mk.injEq]
                        at parsed
                      rcases parsed with ⟨rfl, rfl⟩
                      have filled : front ≠ [] := by
                        rintro rfl
                        exact sized.1 rfl
                      rw [byteAt_append filled] at opened
                      exact .mk (.plain single opened) filled sized.2
                        (decimal_of_parsePort accepted)

/-- A server which begins with a bracket is an address in brackets. -/
theorem bracketed_of_server
    {text server : Text} {port : UInt16}
    (named : Server text server port) (opened : byteAt text 0 = lbracket) :
    Bracketed text := by
  cases named with
  | mk host filled short behind =>
      cases host with
      | plain single bare =>
          rw [byteAt_append filled] at opened
          exact absurd opened bare
      | bracketed closed =>
          exact ⟨server, _, port, rfl, closed, filled, short, behind⟩

theorem server_of_bracketed
    {text : Text} (bracketed : Bracketed text) :
    (∃ server port, Server text server port) ∧
      byteAt text 0 = lbracket := by
  rcases bracketed with
    ⟨server, tail, number, rfl, closed, filled, short, behind⟩
  exact ⟨⟨server, number, .mk (.bracketed closed) filled short behind⟩,
    rfl⟩

/-! ## Texts which name no server -/

/-- Nothing, or a separator and what is behind it. -/
def Separated (tail : Text) : Prop :=
  tail = [] ∨ ∃ number, tail = colon :: number

/-- The ways in which the text behind a scheme may be wrong. -/
inductive Malformed : Text → Prop where
  | unclosed (unclosed : rbracket ∉ rest) :
      Malformed (lbracket :: rest)
  | trailing
      (closed : rbracket ∉ inside) (other : ¬ Separated tail) :
      Malformed (lbracket :: (inside ++ [rbracket]) ++ tail)
  | colons
      (bare :
        byteAt (first ++ colon :: (second ++ colon :: third)) 0 ≠
          lbracket) :
      Malformed (first ++ colon :: (second ++ colon :: third))
  | hostless (host : Host text []) (separated : Separated tail) :
      Malformed (text ++ tail)
  | port
      (host : Host text server) (decimal : Decimal number value)
      (outside : ¬ (1 ≤ value ∧ value ≤ 65535)) :
      Malformed (text ++ colon :: number)

theorem Port.separated
    {tail : Text} {port : UInt16} (behind : Port tail port) :
    Separated tail := by
  cases behind with
  | standard => exact .inl rfl
  | given decimal least most => exact .inr ⟨_, rfl⟩

/-- Where a byte stands first is determined. -/
theorem split_unique
    {front other rest last : Text} {byte : UInt8}
    (absent : byte ∉ front) (missing : byte ∉ other)
    (same : front ++ byte :: rest = other ++ byte :: last) :
    front = other ∧ rest = last := by
  have offset := strchr_append absent rest
  rw [same, strchr_append missing last] at offset
  rcases List.append_inj same (Option.some.inj offset).symm with
    ⟨fronts, behind⟩
  cases behind
  exact ⟨fronts, rfl⟩

/-- Where a bracket is closed is determined. -/
theorem bracket_unique
    {inside other tail rest : Text}
    (closed : rbracket ∉ inside) (shut : rbracket ∉ other)
    (same :
      lbracket :: (inside ++ [rbracket]) ++ tail =
        lbracket :: (other ++ [rbracket]) ++ rest) :
    inside = other ∧ tail = rest := by
  rw [List.cons_append, List.cons_append, List.cons.injEq,
    List.append_assoc, List.append_assoc] at same
  exact split_unique closed shut same.2

/-- A plain address and what is behind it do not begin with a bracket. -/
theorem plain_bare
    {server tail : Text} (bare : byteAt server 0 ≠ lbracket)
    (separated : Separated tail) :
    byteAt (server ++ tail) 0 ≠ lbracket := by
  cases server with
  | cons first rest =>
      exact bare
  | nil =>
      rcases separated with rfl | ⟨number, rfl⟩
      · decide
      · show colon ≠ lbracket
        decide

/-- Where an address ends is determined. -/
theorem Host.unique
    {text other server second tail rest : Text}
    (host : Host text server) (another : Host other second)
    (separated : Separated tail) (apart : Separated rest)
    (same : text ++ tail = other ++ rest) :
    text = other ∧ server = second ∧ tail = rest := by
  cases host with
  | plain single bare =>
      cases another with
      | plain alone unopened =>
          rcases separated with rfl | ⟨number, rfl⟩
          · rcases apart with rfl | ⟨digits, rfl⟩
            · rw [List.append_nil, List.append_nil] at same
              exact ⟨same, same, rfl⟩
            · rw [List.append_nil] at same
              exact absurd (same ▸ by simp) single
          · rcases apart with rfl | ⟨digits, rfl⟩
            · rw [List.append_nil] at same
              exact absurd (same ▸ by simp) alone
            · rcases split_unique single alone same with ⟨rfl, rfl⟩
              exact ⟨rfl, rfl, rfl⟩
      | bracketed closed =>
          have unopened := plain_bare bare separated
          rw [same] at unopened
          exact absurd rfl unopened
  | bracketed closed =>
      cases another with
      | plain alone bare =>
          have unopened := plain_bare bare apart
          rw [← same] at unopened
          exact absurd rfl unopened
      | bracketed shut =>
          rcases bracket_unique closed shut same with ⟨rfl, rfl⟩
          exact ⟨rfl, rfl, rfl⟩

/-- The parts of a server. -/
theorem Server.parts
    {text server : Text} {port : UInt16}
    (named : Server text server port) :
    ∃ host tail,
      text = host ++ tail ∧ Host host server ∧ server ≠ [] ∧
        Port tail port := by
  cases named with
  | mk host filled short behind =>
      exact ⟨_, _, rfl, host, filled, behind⟩

/-- A plain server has one separator at most. -/
theorem count_colon_le
    {text server : Text} {port : UInt16}
    (named : Server text server port) (bare : byteAt text 0 ≠ lbracket) :
    text.count colon ≤ 1 := by
  rcases named.parts with ⟨host, tail, rfl, host, filled, behind⟩
  cases host with
  | bracketed closed =>
      exact absurd rfl bare
  | plain single front =>
      have absent : server.count colon = 0 := List.count_eq_zero.mpr single
      rw [List.count_append, absent, Nat.zero_add]
      cases behind with
      | standard =>
          exact Nat.zero_le 1
      | given decimal least most =>
          rw [List.count_cons_self,
            List.count_eq_zero.mpr (colon_not_mem decimal)]

theorem not_server_of_malformed
    {text server : Text} {port : UInt16} (malformed : Malformed text) :
    ¬ Server text server port := by
  intro named
  cases malformed with
  | @unclosed rest unclosed =>
      rcases bracketed_of_server named rfl with
        ⟨inside, tail, _, same, _⟩
      apply unclosed
      rw [List.cons_append, List.cons.injEq] at same
      rw [same.2]
      simp
  | @trailing inside tail closed other =>
      rcases bracketed_of_server named rfl with
        ⟨second, rest, _, same, shut, _, _, behind⟩
      rcases bracket_unique closed shut same with ⟨_, rfl⟩
      exact other behind.separated
  | @colons first second third bare =>
      have few := count_colon_le named bare
      simp only [List.count_append, List.count_cons_self] at few
      omega
  | @hostless text tail host separated =>
      rcases named.parts with ⟨other, rest, same, another, filled, behind⟩
      rcases host.unique another separated behind.separated same with
        ⟨_, nothing, _⟩
      exact filled nothing.symm
  | @port text server number value host decimal outside =>
      rcases named.parts with ⟨other, rest, same, another, _, behind⟩
      rcases host.unique another (.inr ⟨_, rfl⟩) behind.separated same with
        ⟨_, _, rfl⟩
      cases behind with
      | given second least most =>
          rw [decimal.unique second] at outside
          exact outside ⟨least, most⟩

/-! ## Which arguments are accepted -/

section Arguments

variable {conf : Nspconf} {dns : Text}

theorem length_scheme
    {front : Text} {type : DnsType} (scheme : Scheme front type) :
    front.length = 6 := by
  cases scheme <;> rfl

/-- The scheme of an argument is determined. -/
theorem Scheme.unique
    {front other text rest : Text} {type kind : DnsType}
    (scheme : Scheme front type) (second : Scheme other kind)
    (same : front ++ text = other ++ rest) :
    type = kind ∧ text = rest := by
  have sized : front.length = other.length := by
    rw [length_scheme scheme, length_scheme second]
  rcases List.append_inj same sized with ⟨fronts, rfl⟩
  cases scheme with
  | tcp =>
      cases second with
      | tcp => exact ⟨rfl, rfl⟩
      | udp => exact absurd fronts (by decide)
  | udp =>
      cases second with
      | tcp => exact absurd fronts (by decide)
      | udp => exact ⟨rfl, rfl⟩

theorem scheme_ne_off
    {front : Text} {type : DnsType} (scheme : Scheme front type)
    (text : Text) :
    front ++ text ≠ ascii "off" := by
  intro same
  have sized := congrArg List.length same
  rw [List.length_append, length_scheme scheme] at sized
  have three : (ascii "off").length = 3 := by decide
  omega

/-- Behind a scheme stands a server. -/
theorem parseDns_scheme
    {front : Text} {type : DnsType} (scheme : Scheme front type)
    (text : Text) :
    parseDns conf (front ++ text) =
      (parseServer text).map fun parsed =>
        (Redirection.server type parsed.1 parsed.2).apply conf := by
  have other := scheme_ne_off scheme text
  have begun :
      (tcpScheme.isPrefixOf (front ++ text) ||
        udpScheme.isPrefixOf (front ++ text)) = true := by
    cases scheme <;> rfl
  have behind : (front ++ text).drop tcpScheme.length = text := by
    have sized : tcpScheme.length = front.length :=
      (length_scheme scheme).symm
    rw [sized, List.drop_left]
  have named :
      (if byteAt (front ++ text) 0 = 0x74 then DnsType.tcp
        else DnsType.udp) = type := by
    cases scheme <;> rfl
  simp only [parseDns, if_neg other, if_pos begun, behind, named]
  cases parseServer text with
  | error message => rfl
  | ok parsed => rfl

/-- What denotes a redirection behind a scheme is a server. -/
theorem server_of_denotes
    {front text : Text} {type : DnsType} (scheme : Scheme front type)
    {redirection : Redirection}
    (named : Denotes (front ++ text) redirection) :
    ∃ server port,
      redirection = .server type server port ∧
        Server text server port := by
  generalize same : front ++ text = argument at named
  cases named with
  | off =>
      exact absurd same (scheme_ne_off scheme text)
  | server second named =>
      rcases scheme.unique second same with ⟨rfl, rfl⟩
      exact ⟨_, _, rfl, named⟩

/-- The word denotes one redirection. -/
theorem off_of_denotes
    {redirection : Redirection}
    (named : Denotes (ascii "off") redirection) :
    redirection = .off := by
  generalize same : ascii "off" = argument at named
  cases named with
  | off =>
      rfl
  | server scheme named =>
      exact absurd same.symm (scheme_ne_off scheme _)

/-- An argument with an address in brackets is rejected. -/
theorem not_correct_of_bracketed
    {front text : Text} {type : DnsType} (scheme : Scheme front type)
    (bracketed : Bracketed text) :
    ¬ Correct conf (front ++ text) := by
  rcases server_of_bracketed bracketed with
    ⟨⟨server, port, named⟩, opened⟩
  rcases parseServer_bracket opened with ⟨message, rejected⟩
  intro correct
  have accepted := correct.1 _ (.server scheme named)
  rw [parseDns_scheme scheme, rejected] at accepted
  cases accepted

theorem correct_of_scheme
    {front text : Text} {type : DnsType} (scheme : Scheme front type)
    (bare : ¬ Bracketed text) :
    Correct conf (front ++ text) := by
  constructor
  · intro redirection denoted
    rcases server_of_denotes scheme denoted with
      ⟨server, port, rfl, named⟩
    have unopened : byteAt text 0 ≠ lbracket :=
      fun opened => bare (bracketed_of_server named opened)
    rw [parseDns_scheme scheme, parseServer_of_server named unopened]
    rfl
  · intro unnamed
    cases parsed : parseServer text with
    | ok server =>
        have named := server_of_parseServer parsed
        exact absurd (.server scheme named) (unnamed _)
    | error message =>
        refine ⟨message, ?_⟩
        rw [parseDns_scheme scheme, parsed]
        rfl

/-- A malformed argument is rejected, with brackets or without. -/
theorem parseDns_malformed
    {front text : Text} {type : DnsType} (scheme : Scheme front type)
    (malformed : Malformed text) :
    (∀ redirection, ¬ Denotes (front ++ text) redirection) ∧
      ∃ message, parseDns conf (front ++ text) = .error message := by
  constructor
  · intro redirection denoted
    rcases server_of_denotes scheme denoted with
      ⟨server, port, _, named⟩
    exact not_server_of_malformed malformed named
  · rw [parseDns_scheme scheme]
    cases parsed : parseServer text with
    | error message =>
        exact ⟨message, rfl⟩
    | ok server =>
        exact absurd (server_of_parseServer parsed)
          (not_server_of_malformed malformed)

/-- An argument is the word, or has a scheme, or is rejected. -/
theorem parseDns_cases (conf : Nspconf) (dns : Text) :
    dns = ascii "off" ∨
      (∃ front type text, Scheme front type ∧ dns = front ++ text) ∨
        ((∀ redirection, ¬ Denotes dns redirection) ∧
          ∃ message, parseDns conf dns = .error message) := by
  by_cases word : dns = ascii "off"
  · exact .inl word
  · right
    by_cases begun :
        (tcpScheme.isPrefixOf dns || udpScheme.isPrefixOf dns) = true
    · left
      rcases Bool.or_eq_true_iff.mp begun with tcp | udp
      · rcases List.isPrefixOf_iff_prefix.mp tcp with ⟨text, rfl⟩
        exact ⟨_, _, text, .tcp, rfl⟩
      · rcases List.isPrefixOf_iff_prefix.mp udp with ⟨text, rfl⟩
        exact ⟨_, _, text, .udp, rfl⟩
    · right
      constructor
      · intro redirection denoted
        cases denoted with
        | off =>
            exact word rfl
        | server scheme named =>
            apply begun
            cases scheme <;> rfl
      · simp only [parseDns, if_neg word, if_neg begun]
        exact ⟨_, rfl⟩

/--
The argument of `-d` is handled as the notation says exactly when it has no
address in brackets.
-/
theorem parse_dns_iff (conf : Nspconf) (dns : Text) :
    Correct conf dns ↔
      ∀ front type text,
        Scheme front type → dns = front ++ text → ¬ Bracketed text := by
  constructor
  · rintro correct front type text scheme rfl bracketed
    exact not_correct_of_bracketed scheme bracketed correct
  · intro bare
    rcases parseDns_cases conf dns with
      rfl | ⟨front, type, text, scheme, rfl⟩ | rejected
    · refine ⟨?_, fun unnamed => absurd .off (unnamed .off)⟩
      intro redirection denoted
      rw [off_of_denotes denoted]
      rfl
    · exact correct_of_scheme scheme (bare front type text scheme rfl)
    · exact ⟨fun redirection denoted =>
        absurd denoted (rejected.1 redirection), fun _ => rejected.2⟩

end Arguments

/-- The example of the manual for an IPv6 address. -/
def manualExample : Text := ascii "udp://[::1]:53"

/-- The text of the example behind the scheme. -/
def manualServer : Text :=
  lbracket :: (ascii "::1" ++ [rbracket]) ++ colon :: ascii "53"

theorem decimal_manual : Decimal (ascii "53") 53 := by
  refine ⟨[], [], 1, ascii "53", rfl, ?_, .none, ?_, ?_, ?_⟩
  · intro byte member
    cases member
  · decide +kernel
  · decide +kernel
  · decide +kernel

theorem server_manual : Server manualServer (ascii "::1") 53 := by
  have port : Port (colon :: ascii "53") 53 :=
    .given decimal_manual (by decide +kernel) (by decide +kernel)
  exact .mk (.bracketed (by decide +kernel)) (by decide +kernel)
    (by decide +kernel) port

/-- The example denotes a redirection, but it is rejected. -/
theorem parse_dns_rejects_manual :
    Denotes manualExample (.server .udp (ascii "::1") 53) ∧
      parseDns sampleProcess.conf manualExample =
        .error (complaint "Bad DNS server address") ∧
      ¬ Correct sampleProcess.conf manualExample := by
  have parts : manualExample = udpScheme ++ manualServer := by
    decide +kernel
  have bracketed : Bracketed manualServer :=
    bracketed_of_server server_manual rfl
  rw [parts]
  refine ⟨.server .udp server_manual, ?_, ?_⟩
  · decide +kernel
  · exact not_correct_of_bracketed .udp bracketed

end Nsproxy.Args.DnsArgs
