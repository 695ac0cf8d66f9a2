import Mathlib.Tactic.Common
import Nsproxy.Conf
import Nsproxy.Handshake.Output
import Nsproxy.Http
import Nsproxy.Lib.Base64
import Nsproxy.Lib.CString
import Nsproxy.Socks

/-!
# Credentials

The argument of `-a` on its way to the proxy: `main` splits it at its first
colon and checks the lengths of both parts once, and the clients put them
into the authentication message of SOCKS5 and into the header of an HTTP
request.

`readAuth` reads the message as the server does.  Both it and the decoder of
base64 give back the two parts of the argument.
-/

namespace Nsproxy.Handshake.Credentials

open Nsproxy.Conf
open Nsproxy.Handshake.Output
open Nsproxy.Http
open Nsproxy.Lib.Base64
open Nsproxy.Lib.CString
open Nsproxy.Socks

/-- The character between the user name and the password. -/
def colon : UInt8 := 0x3a

/-- What `main` does with the argument of `-a`; `none` ends the process. -/
def mainAuth (ishttp : Bool) (auth : Text) (conf : Nspconf) :
    Option Nspconf :=
  match strchr auth colon with
  | none => none
  | some ulen =>
      let pass := auth.drop (ulen + 1)
      let plen := pass.length
      if ulen = 0 ∨ (plen = 0 ∧ ishttp = false) then
        none
      else if authMaxlen + 1 ≤ ulen ∨ authMaxlen + 1 ≤ plen then
        none
      else
        some
          { conf with
            proxyuser := (auth.take ulen).take authMaxlen
            proxypass := pass.take authMaxlen }

/--
The authentication message as a server reads it: the version 1, and two
fields with their lengths in front of them, with nothing left over.
-/
def readAuth : List UInt8 → Option (Text × Text)
  | ver :: ulen :: rest =>
      if ver ≠ 1 ∨ rest.length < ulen.toNat then
        none
      else
        match rest.drop ulen.toNat with
        | [] => none
        | plen :: passwd =>
            if passwd.length = plen.toNat then
              some (rest.take ulen.toNat, passwd)
            else
              none
  | _ => none

/-! ## The argument -/

/-- The arguments which `main` accepts, and what it stores. -/
theorem mainAuth_some
    {ishttp : Bool} {auth : Text} {conf next : Nspconf}
    (accepted : mainAuth ishttp auth conf = some next) :
    ∃ user pass,
      auth = user ++ colon :: pass ∧ colon ∉ user ∧
        1 ≤ user.length ∧ user.length ≤ authMaxlen ∧
          pass.length ≤ authMaxlen ∧
            (ishttp = false → 1 ≤ pass.length) ∧
              next = { conf with proxyuser := user, proxypass := pass } := by
  rw [mainAuth] at accepted
  split at accepted
  · cases accepted
  · next ulen found =>
      rcases strchr_some found with ⟨user, pass, rfl, absent, rfl⟩
      have front : (user ++ colon :: pass).take user.length = user :=
        List.take_left
      have behind :
          (user ++ colon :: pass).drop (user.length + 1) = pass := by
        rw [← List.drop_drop, List.drop_left]
        rfl
      simp only [front, behind] at accepted
      split at accepted
      · cases accepted
      · next some_text =>
          split at accepted
          · cases accepted
          · next short =>
              rw [not_or] at some_text short
              have fits : user.length ≤ authMaxlen := by omega
              have fitsToo : pass.length ≤ authMaxlen := by omega
              rw [List.take_of_length_le fits,
                List.take_of_length_le fitsToo] at accepted
              cases accepted
              refine
                ⟨user, pass, rfl, absent, by omega, fits, fitsToo, ?_,
                  rfl⟩
              intro socks
              apply Nat.pos_of_ne_zero
              intro empty
              exact some_text.2 ⟨empty, socks⟩

/-! ## The message of SOCKS5 -/

/-- The server reads back what fits into the length bytes. -/
theorem readAuth_authMessage
    {conf : Nspconf} (user : conf.proxyuser.length ≤ authMaxlen)
    (pass : conf.proxypass.length ≤ authMaxlen) :
    readAuth (authMessage conf) =
      some (conf.proxyuser, conf.proxypass) := by
  have ulen :
      (UInt8.ofNat conf.proxyuser.length).toNat =
        conf.proxyuser.length :=
    UInt8.toNat_ofNat_of_lt' (Nat.lt_succ_of_le user)
  have plen :
      (UInt8.ofNat conf.proxypass.length).toNat =
        conf.proxypass.length :=
    UInt8.toNat_ofNat_of_lt' (Nat.lt_succ_of_le pass)
  have message :
      authMessage conf =
        1 :: UInt8.ofNat conf.proxyuser.length ::
          (conf.proxyuser ++
            UInt8.ofNat conf.proxypass.length :: conf.proxypass) := by
    simp [authMessage]
  rw [message]
  simp only [readAuth, ulen]
  rw [List.drop_left, List.take_left, if_neg]
  · simp only [plen, if_true]
  · rw [List.length_append]
    simp

/-! ## The token of HTTP -/

/-- The table of the encoder has the characters of the alphabet. -/
theorem sextet_base64Char
    {index : UInt8} (small : index.toNat < 64) :
    sextet (base64Char index) = some index.toNat := by
  have all :
      ∀ bits : BitVec 8, bits.toNat < 64 →
        sextet (base64Char ⟨bits⟩) = some bits.toNat := by
    decide +kernel
  exact all index.toBitVec small

/-- How the bits of a byte are taken apart. -/
theorem toNat_bits (byte : UInt8) :
    ((byte &&& 0xfc) >>> 2).toNat = byte.toNat / 4 ∧
      ((byte &&& 0x03) <<< 4).toNat = 16 * (byte.toNat % 4) ∧
        (byte >>> 4).toNat = byte.toNat / 16 ∧
          ((byte &&& 0x0f) <<< 2).toNat = 4 * (byte.toNat % 16) ∧
            (byte >>> 6).toNat = byte.toNat / 64 ∧
              (byte &&& 0x3f).toNat = byte.toNat % 64 := by
  have all :
      ∀ bits : BitVec 8,
        (((⟨bits⟩ : UInt8) &&& 0xfc) >>> 2).toNat = bits.toNat / 4 ∧
          (((⟨bits⟩ : UInt8) &&& 0x03) <<< 4).toNat =
              16 * (bits.toNat % 4) ∧
            ((⟨bits⟩ : UInt8) >>> 4).toNat = bits.toNat / 16 ∧
              (((⟨bits⟩ : UInt8) &&& 0x0f) <<< 2).toNat =
                  4 * (bits.toNat % 16) ∧
                ((⟨bits⟩ : UInt8) >>> 6).toNat = bits.toNat / 64 ∧
                  ((⟨bits⟩ : UInt8) &&& 0x3f).toNat =
                    bits.toNat % 64 := by
    decide +kernel
  exact all byte.toBitVec

theorem toNat_second (a b : UInt8) :
    (((a &&& 0x03) <<< 4) ||| (b >>> 4)).toNat =
      16 * (a.toNat % 4) + b.toNat / 16 := by
  have bound := b.toNat_lt
  have small : b.toNat / 16 < 2 ^ 4 := by omega
  rw [UInt8.toNat_or, (toNat_bits a).2.1, (toNat_bits b).2.2.1]
  exact (Nat.two_pow_add_eq_or_of_lt small _).symm

theorem toNat_third (b c : UInt8) :
    (((b &&& 0x0f) <<< 2) ||| (c >>> 6)).toNat =
      4 * (b.toNat % 16) + c.toNat / 64 := by
  have bound := c.toNat_lt
  have small : c.toNat / 64 < 2 ^ 2 := by omega
  rw [UInt8.toNat_or, (toNat_bits b).2.2.2.1, (toNat_bits c).2.2.2.2.1]
  exact (Nat.two_pow_add_eq_or_of_lt small _).symm

section Sextets

variable (a b c : UInt8)

theorem sextet_first :
    sextet (base64Char ((a &&& 0xfc) >>> 2)) = some (a.toNat / 4) := by
  have bound := a.toNat_lt
  have number := (toNat_bits a).1
  rw [← number]
  apply sextet_base64Char
  omega

theorem sextet_second :
    sextet (base64Char (((a &&& 0x03) <<< 4) ||| (b >>> 4))) =
      some (16 * (a.toNat % 4) + b.toNat / 16) := by
  have bound := b.toNat_lt
  have number := toNat_second a b
  rw [← number]
  apply sextet_base64Char
  omega

theorem sextet_third :
    sextet (base64Char (((b &&& 0x0f) <<< 2) ||| (c >>> 6))) =
      some (4 * (b.toNat % 16) + c.toNat / 64) := by
  have bound := c.toNat_lt
  have number := toNat_third b c
  rw [← number]
  apply sextet_base64Char
  omega

theorem sextet_fourth :
    sextet (base64Char (c &&& 0x3f)) = some (c.toNat % 64) := by
  have number := (toNat_bits c).2.2.2.2.2
  rw [← number]
  apply sextet_base64Char
  omega

/-- The second character when nothing follows the byte. -/
theorem sextet_second_last :
    sextet (base64Char ((a &&& 0x03) <<< 4)) =
      some (16 * (a.toNat % 4)) := by
  have number := (toNat_bits a).2.1
  rw [← number]
  apply sextet_base64Char
  omega

/-- The third character when nothing follows the byte. -/
theorem sextet_third_last :
    sextet (base64Char ((b &&& 0x0f) <<< 2)) =
      some (4 * (b.toNat % 16)) := by
  have number := (toNat_bits b).2.2.2.1
  rw [← number]
  apply sextet_base64Char
  omega

end Sextets

/-- `base64_encode` writes what the reference decoder reads back. -/
theorem decode_base64Groups (binary : List UInt8) :
    decode (base64Groups binary) = some binary := by
  induction binary using base64Groups.induct with
  | case1 => rfl
  | case2 a =>
      have bound := a.toNat_lt
      rw [base64Groups]
      have decoded :=
        decode_one (sextet_first a) (sextet_second_last a) (by omega)
      have first :
          a.toNat / 4 * 4 + 16 * (a.toNat % 4) / 16 = a.toNat := by
        omega
      simp only [bytesOf, first, UInt8.ofNat_toNat] at decoded
      exact decoded
  | case3 a b =>
      have bound := b.toNat_lt
      rw [base64Groups]
      have decoded :=
        decode_two (sextet_first a) (sextet_second a b)
          (sextet_third_last b) (by omega)
      have first :
          a.toNat / 4 * 4 + (16 * (a.toNat % 4) + b.toNat / 16) / 16 =
            a.toNat := by
        omega
      have second :
          (16 * (a.toNat % 4) + b.toNat / 16) % 16 * 16 +
            4 * (b.toNat % 16) / 4 = b.toNat := by
        omega
      simp only [bytesOf, first, second, UInt8.ofNat_toNat] at decoded
      exact decoded
  | case4 a b c rest induction =>
      have bound := b.toNat_lt
      have limit := c.toNat_lt
      rw [base64Groups]
      have decoded :=
        decode_full (sextet_first a) (sextet_second a b)
          (sextet_third b c) (sextet_fourth c) induction
      have first :
          a.toNat / 4 * 4 + (16 * (a.toNat % 4) + b.toNat / 16) / 16 =
            a.toNat := by
        omega
      have second :
          (16 * (a.toNat % 4) + b.toNat / 16) % 16 * 16 +
            (4 * (b.toNat % 16) + c.toNat / 64) / 4 = b.toNat := by
        omega
      have third :
          (4 * (b.toNat % 16) + c.toNat / 64) % 4 * 64 +
            c.toNat % 64 = c.toNat := by
        omega
      simp only [bytesOf, first, second, third, UInt8.ofNat_toNat]
        at decoded
      exact decoded

/-- The header line with the token is the last one of the request. -/
theorem httpRequest_authorization
    {conf : Nspconf} (named : conf.proxyuser ≠ [])
    (user : conf.proxyuser.length ≤ authMaxlen)
    (pass : conf.proxypass.length ≤ authMaxlen) (client : ProxyHttp) :
    ∃ front,
      httpRequest conf client =
        front ++ crlf ++
          (ascii "Proxy-Authorization: Basic " ++
            base64Groups
              (conf.proxyuser ++ [colon] ++ conf.proxypass)) ++
            crlf ++ crlf := by
  refine
    ⟨ascii "CONNECT " ++ authority client ++ ascii " HTTP/1.1" ++ crlf ++
      ascii "Host: " ++ authority client, ?_⟩
  rw [httpRequest, if_pos named, basicToken_eq user pass]
  simp only [List.append_assoc, colon]

/-! ## Both protocols -/

/--
An argument which `main` accepts has a user name of 1 to 255 bytes in front
of its first colon and a password of at most 255 bytes behind it, which is
not empty for SOCKS5.  The server reads both from the message of the
authentication phase, and the token of an HTTP request is the base64 form of
the whole argument.
-/
theorem credentials_reach_proxy
    {ishttp : Bool} {auth : Text} {conf next : Nspconf}
    (accepted : mainAuth ishttp auth conf = some next) :
    ∃ user pass,
      auth = user ++ colon :: pass ∧ colon ∉ user ∧
        (1 ≤ user.length ∧ user.length ≤ 255 ∧ pass.length ≤ 255 ∧
          (ishttp = false → 1 ≤ pass.length)) ∧
          (∀ inet (client : ProxySocks),
            ∃ message,
              handshakeMessage next inet
                  { client with phase := .sendAuth } = some message ∧
                readAuth message = some (user, pass) ∧
                  message.length ≤ socksHsBuff) ∧
            ∀ client : ProxyHttp,
              (∃ front token,
                httpRequest next client =
                    front ++ crlf ++
                      (ascii "Proxy-Authorization: Basic " ++ token) ++
                        crlf ++ crlf ∧
                  decode token = some (user ++ [colon] ++ pass)) ∧
                (client.addr.length ≤ servnameMaxlen →
                  (httpRequest next client).length < httpHsBuff) := by
  rcases mainAuth_some accepted with
    ⟨user, pass, split, absent, some_user, shortUser, shortPass, some_pass,
      rfl⟩
  refine
    ⟨user, pass, split, absent,
      ⟨some_user, shortUser, shortPass, some_pass⟩, ?_, ?_⟩
  · intro inet client
    refine
      ⟨_, rfl, readAuth_authMessage shortUser shortPass, ?_⟩
    simp only [authMessage, List.length_append, List.length_cons,
      List.length_nil, socksHsBuff]
    rw [authMaxlen] at shortUser shortPass
    omega
  · intro client
    constructor
    · have named : user ≠ [] := by
        apply List.ne_nil_of_length_pos
        exact some_user
      rcases @httpRequest_authorization
          { conf with proxyuser := user, proxypass := pass } named
          shortUser shortPass client with ⟨front, request⟩
      exact ⟨front, _, request, decode_base64Groups _⟩
    · intro short
      rw [httpRequest_eq shortUser shortPass]
      exact length_connectRequest shortUser shortPass short client.port

/-- The argument `u:p:q`, whose password contains a colon. -/
theorem credentials_reach_proxy_colon :
    ∃ next user pass,
      mainAuth false (ascii "u:p:q")
          (SocksSteps.sampleConf [] []) = some next ∧
        ascii "u:p:q" = user ++ colon :: pass ∧ colon ∉ user ∧
          readAuth [1, 1, 0x75, 3, 0x70, 0x3a, 0x71] =
            some (user, pass) := by
  have accepts :
      (mainAuth false (ascii "u:p:q")
        (SocksSteps.sampleConf [] [])).map
          (fun next => decide
            (authMessage next = [1, 1, 0x75, 3, 0x70, 0x3a, 0x71])) =
        some true := by
    decide +kernel
  rcases Option.map_eq_some_iff.mp accepts with ⟨next, accepted, built⟩
  rcases credentials_reach_proxy accepted with
    ⟨user, pass, split, absent, _, socks, _⟩
  rcases socks SocksSteps.sampleInet
      (SocksSteps.sampleSession .tcpForward []).client with
    ⟨message, made, read, _⟩
  have same : authMessage next = message := Option.some.inj made
  rw [← same, of_decide_eq_true built] at read
  exact ⟨next, user, pass, accepted, split, absent, read⟩

end Nsproxy.Handshake.Credentials
