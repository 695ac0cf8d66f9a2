import Mathlib.Tactic.Common
import Nsproxy.Lib.Transition
import Nsproxy.Handshake.Output
import Nsproxy.Handshake.SocksExact
import Nsproxy.Handshake.SocksSteps

/-!
# Waiting for the reply

In `PHASE_RECV_REPLY` the client takes what it has seen from the socket as
long as `socks5_addr_get` finds no address in it.  That function has one error
for an address which is not complete and for one which is of an unknown type,
and the version is looked at in a complete reply only.

The bytes which the client has accumulated are the first bytes of a reply
exactly when their version and their address type are those of one.
-/

namespace Nsproxy.Handshake.SocksWaiting

open Nsproxy.Conf
open Nsproxy.Lib.Transition
open Nsproxy.Skutils
open Nsproxy.Socks
open Nsproxy.Handshake.Output
open Nsproxy.Handshake.Socket
open Nsproxy.Handshake.SocksExact
open Nsproxy.Handshake.SocksReply
open Nsproxy.Handshake.SocksSteps

/-! ## Beginnings of a reply -/

/-- The first bytes of a SOCKS5 reply which is not complete. -/
def Unfinished (bytes : List UInt8) : Prop :=
  ∃ reply : Reply,
    reply.ver = 5 ∧ bytes <+: reply.encode ∧ bytes ≠ reply.encode

/-- The version and the address type, as far as they are there. -/
structure Admissible (bytes : List UInt8) : Prop where
  version : ∀ ver, bytes[0]? = some ver → ver = 5
  atype : ∀ atype, bytes[3]? = some atype → atype ∈ [1, 3, 4]

theorem Admissible.of_isPrefix
    {front bytes : List UInt8} (admissible : Admissible bytes)
    (isFront : front <+: bytes) :
    Admissible front := by
  have kept :
      ∀ (index : Nat) (byte : UInt8), front[index]? = some byte →
        bytes[index]? = some byte := by
    intro index byte found
    rcases isFront with ⟨rest, rfl⟩
    rw [List.getElem?_append_left (List.getElem?_eq_some_iff.mp found).1]
    exact found
  constructor
  · intro ver first
    exact admissible.version ver (kept 0 ver first)
  · intro atype fourth
    exact admissible.atype atype (kept 3 atype fourth)

theorem admissible_encode
    {reply : Reply} (version : reply.ver = 5) :
    Admissible reply.encode := by
  rcases reply with ⟨ver, rep, rsv, addr, port⟩
  constructor
  · intro first same
    cases same
    exact version
  · intro atype same
    cases addr with
    | v4 addr =>
        cases same
        decide
    | v6 addr =>
        cases same
        decide
    | domain name short =>
        cases same
        decide

theorem Unfinished.admissible
    {bytes : List UInt8} (unfinished : Unfinished bytes) :
    Admissible bytes := by
  rcases unfinished with ⟨reply, version, front, _⟩
  exact (admissible_encode version).of_isPrefix front

/-- An address of a known type is complete after 258 bytes. -/
theorem parseReply_of_long
    (inet : Inet) (ver rep rsv : UInt8) {atype : UInt8}
    (known : atype ∈ [1, 3, 4]) {buffer : List UInt8}
    (long : 258 ≤ buffer.length) :
    ∃ found,
      parseReply inet (ver :: rep :: rsv :: atype :: buffer) =
        some found := by
  have port :
      ∀ rest : List UInt8, 2 ≤ rest.length →
        ∃ found, getPort rest = some found := by
    intro rest two
    rcases rest with _ | ⟨high, _ | ⟨low, rest⟩⟩
    · cases two
    · cases Nat.le_of_succ_le_succ two
    · exact ⟨_, rfl⟩
  have address :
      ∃ text rest,
        getAddr inet atype buffer = some (text, rest) ∧
          2 ≤ rest.length := by
    simp only [List.mem_cons, List.not_mem_nil, or_false] at known
    rcases known with rfl | rfl | rfl
    · have four : 4 ≤ buffer.length := by omega
      simp only [getAddr, if_true, dif_pos four]
      refine ⟨_, _, rfl, ?_⟩
      rw [List.length_drop]
      omega
    · cases buffer with
      | nil => cases long
      | cons alen rest =>
          have bound := alen.toNat_lt
          rw [List.length_cons] at long
          have enough : ¬ rest.length < alen.toNat := by omega
          refine ⟨rest.take alen.toNat, rest.drop alen.toNat, ?_, ?_⟩
          · simp only [getAddr, if_neg enough]
            rfl
          · rw [List.length_drop]
            omega
    · have sixteen : 16 ≤ buffer.length := by omega
      have other : ¬ (4 : UInt8) = 1 := by decide
      simp only [getAddr, if_neg other, if_true, dif_pos sixteen]
      refine ⟨_, _, rfl, ?_⟩
      rw [List.length_drop]
      omega
  rcases address with ⟨text, rest, read, two⟩
  rcases port rest two with ⟨⟨port, behind⟩, last⟩
  simp only [parseReply, socks5HdrGet, socks5AddrGet, read, last]
  exact ⟨_, rfl⟩

/-- Bytes which complete any admissible beginning. -/
def completion (bytes : List UInt8) : List UInt8 :=
  [5, 0, 0, 1].drop bytes.length ++ List.replicate 258 0

theorem parseReply_completion
    (inet : Inet) {bytes : List UInt8} (admissible : Admissible bytes) :
    ∃ found rest,
      parseReply inet (bytes ++ completion bytes) = some found ∧
        bytes ++ completion bytes = 5 :: rest := by
  have zeros : 258 ≤ (List.replicate 258 (0 : UInt8)).length := by
    rw [List.length_replicate]
  have v4 : (1 : UInt8) ∈ [1, 3, 4] := List.mem_cons_self
  match bytes, admissible with
  | [], _ =>
      rcases parseReply_of_long inet 5 0 0 v4 zeros with
        ⟨found, read⟩
      exact ⟨found, _, read, rfl⟩
  | [ver], admissible =>
      cases admissible.version ver rfl
      rcases parseReply_of_long inet 5 0 0 v4 zeros with
        ⟨found, read⟩
      exact ⟨found, _, read, rfl⟩
  | [ver, rep], admissible =>
      cases admissible.version ver rfl
      rcases parseReply_of_long inet 5 rep 0 v4 zeros with
        ⟨found, read⟩
      exact ⟨found, _, read, rfl⟩
  | [ver, rep, rsv], admissible =>
      cases admissible.version ver rfl
      rcases parseReply_of_long inet 5 rep rsv v4 zeros with
        ⟨found, read⟩
      exact ⟨found, _, read, rfl⟩
  | ver :: rep :: rsv :: atype :: buffer, admissible =>
      cases admissible.version ver rfl
      have long :
          258 ≤
            (buffer ++
              completion (5 :: rep :: rsv :: atype :: buffer)).length := by
        simp only [completion, List.length_append, List.length_replicate]
        omega
      rcases parseReply_of_long inet 5 rep rsv
          (admissible.atype atype rfl) long with
        ⟨found, read⟩
      exact ⟨found, _, read, rfl⟩

/-- What may become a reply and is none. -/
theorem unfinished_of_admissible
    {inet : Inet} {bytes : List UInt8} (admissible : Admissible bytes)
    (incomplete : parseReply inet bytes = none) :
    Unfinished bytes := by
  rcases parseReply_completion inet admissible with
    ⟨⟨hdr, relay, rest⟩, behind, read, first⟩
  rcases parseReply_some read with ⟨reply, whole, _, _⟩
  have version : reply.ver = 5 := by
    rw [whole] at first
    exact List.head_eq_of_cons_eq first
  have longer : ¬ reply.encode <+: bytes := by
    rintro ⟨back, same⟩
    rw [← same, parseReply_encode] at incomplete
    cases incomplete
  have front : bytes <+: reply.encode := by
    have ordered := List.prefix_or_prefix_of_prefix
      (List.prefix_append bytes (completion bytes))
      (whole ▸ List.prefix_append reply.encode rest)
    exact ordered.resolve_right longer
  refine ⟨reply, version, front, ?_⟩
  rintro rfl
  exact longer (List.prefix_refl _)

/-! ## Sessions in `PHASE_RECV_REPLY` -/

/-- The client has sent its request, and the server will send these bytes. -/
def Waits (stream : List UInt8) (session : SocksSession) : Prop :=
  session.client.phase = .recvReply ∧ session.client.hsbuff = [] ∧
    session.unread = stream

/-- Every session which enters the phase waits in this way. -/
theorem waits_of_entered
    {conf : Nspconf} {inet : Inet} {session after : SocksSession}
    {turn : SocketTurn} (takes : Takes conf inet session turn after)
    (outside : session.client.phase ≠ .recvReply)
    (entered : after.client.phase = .recvReply) :
    Waits after.unread after := by
  refine ⟨entered, hsbuff_of_entered takes ?_ ?_, rfl⟩
  · rw [entered]
    exact outside.symm
  · rw [entered]
    exact SocksPhase.noConfusion

/-- The bytes which were received in the phase. -/
def accumulated (stream : List UInt8) (session : SocksSession) :
    List UInt8 :=
  stream.take (stream.length - session.unread.length)

/-- The client waits for what can still succeed, and for that alone. -/
structure Patient (stream : List UInt8) (session : SocksSession) :
    Prop where
  ends :
    session.client.phase = .recvReply ∨
      session.client.phase = .forwarding ∨
      session.client.phase = .failed
  unfinished :
    session.client.phase = .recvReply → accumulated stream session ≠ [] →
      Unfinished (accumulated stream session)
  positive :
    session.client.phase = .recvReply → 0 < requested session.client
  closed :
    ∀ turn more, session.client.phase = .recvReply →
      turn.arrival = .shows more → looked turn session = [] →
        session.unread = []

/-- What the client has seen, and where it is. -/
inductive Reads (inet : Inet) (stream : List UInt8)
    (session : SocksSession) : Prop where
  | waits
      (phase : session.client.phase = .recvReply)
      (read : stream = session.client.hsbuff ++ session.unread)
      (incomplete : parseReply inet session.client.hsbuff = none)
  | finished
      (phase :
        session.client.phase = .forwarding ∨
          session.client.phase = .failed)

theorem reads_takes
    {conf : Nspconf} {inet : Inet} {stream : List UInt8}
    {session after : SocksSession} {turn : SocketTurn}
    (takes : Takes conf inet session turn after)
    (reads : Reads inet stream session) :
    Reads inet stream after := by
  cases reads with
  | finished phase =>
      have past :
          isSending session.client.phase = false ∧
            isReceiving session.client.phase = false := by
        rcases phase with same | same
        · rw [same]
          exact ⟨rfl, rfl⟩
        · rw [same]
          exact ⟨rfl, rfl⟩
      cases takes with
      | told finished => exact .finished phase
      | stalls sending | breaks sending | writes sending
      | wrote sending =>
          rw [past.1] at sending
          cases sending
      | idles receiving | loses receiving | reads receiving =>
          rw [past.2] at receiving
          cases receiving
  | waits phase read incomplete =>
      cases takes with
      | told finished =>
          rw [phase] at finished
          exact absurd rfl finished
      | stalls sending | breaks sending | writes sending
      | wrote sending =>
          rw [phase] at sending
          cases sending
      | idles receiving arrival =>
          exact .waits phase read incomplete
      | loses receiving arrival =>
          exact .finished (.inr rfl)
      | @reads next receiving arrived received =>
          have verdict := received.phase
          simp only [phase, SocksSteps.verdict, replyVerdict] at verdict
          cases parsed :
              parseReply inet
                (session.client.hsbuff ++ looked turn session) with
          | none =>
              rw [parsed] at verdict
              have kept := received.waiting (verdict.trans phase.symm)
              have all :
                  consumed inet turn session =
                    (looked turn session).length := by
                simp only [consumed, phase, replyLength, parsed]
              refine .waits verdict ?_ ?_
              · simp only [kept, all]
                rw [List.append_assoc, looked_append]
                exact read
              · rw [kept]
                exact parsed
          | some found =>
              rcases found with ⟨hdr, relay, rest⟩
              rw [parsed] at verdict
              simp only [] at verdict
              split at verdict
              · exact .finished (.inr verdict)
              · exact .finished (.inl verdict)

theorem reads_of_reachable
    {conf : Nspconf} {inet : Inet} {stream : List UInt8}
    {session : SocksSession}
    (reachable :
      (sessionSystem conf inet (Waits stream)).Reachable session) :
    Reads inet stream session := by
  apply reachable.invariant
  · rintro source ⟨phase, empty, unread⟩
    refine .waits phase ?_ ?_
    · rw [empty, unread]
      rfl
    · rw [empty]
      rfl
  · intro source turn target before rereads handled
    exact reads_takes (takes_of_handled rereads handled) before

theorem accumulated_eq
    {stream : List UInt8} {session : SocksSession}
    (read : stream = session.client.hsbuff ++ session.unread) :
    accumulated stream session = session.client.hsbuff := by
  have size :
      stream.length - session.unread.length =
        session.client.hsbuff.length := by
    rw [read, List.length_append, Nat.add_sub_cancel]
  rw [accumulated, size, read, List.take_left' rfl]

theorem patient_of_reads
    {inet : Inet} {stream : List UInt8} {session : SocksSession}
    (admissible : Admissible stream) (reads : Reads inet stream session) :
    Patient stream session := by
  cases reads with
  | finished phase =>
      have left : session.client.phase ≠ .recvReply := by
        intro waits
        rw [waits] at phase
        rcases phase with impossible | impossible
        · cases impossible
        · cases impossible
      exact
        ⟨.inr phase, fun waits => absurd waits left,
          fun waits => absurd waits left,
          fun _ _ waits => absurd waits left⟩
  | waits phase read incomplete =>
      have front : session.client.hsbuff <+: stream := by
        rw [read]
        exact List.prefix_append _ _
      have unfinished :=
        unfinished_of_admissible (admissible.of_isPrefix front) incomplete
      have positive : 0 < requested session.client := by
        rcases unfinished with ⟨reply, _, isFront, _⟩
        have longest := length_encode_lt reply
        have shorter := isFront.length_le
        simp only [requested, phase]
        omega
      refine ⟨.inl phase, ?_, fun _ => positive, ?_⟩
      · intro _ _
        rw [accumulated_eq read]
        exact unfinished
      · intro turn more _ shows nothing
        by_contra some_byte
        exact take_shown_ne_nil shows some_byte positive nothing

/-! ## Bytes which are no reply -/

/-- A client whose request was sent. -/
def waitingSession (stream : List UInt8) : SocksSession where
  client := { sampleClient .tcpForward with phase := .recvReply }
  unread := stream
  journal := []

theorem waits_waitingSession (stream : List UInt8) :
    Waits stream (waitingSession stream) :=
  ⟨rfl, rfl, rfl⟩

/-- The client waits after bytes in which it finds no reply. -/
theorem exists_accumulated
    (conf : Nspconf) (inet : Inet) {stream : List UInt8} {count : Nat}
    (small : count + 1 < socksHsBuff)
    (incomplete : parseReply inet (stream.take (count + 1)) = none)
    (some_byte : stream.take (count + 1) ≠ []) :
    ∃ session,
      (sessionSystem conf inet (Waits stream)).Reachable session ∧
        session.client.phase = .recvReply ∧
        accumulated stream session = stream.take (count + 1) := by
  have start :
      (sessionSystem conf inet (Waits stream)).Reachable
        (waitingSession stream) :=
    .start (waits_waitingSession stream)
  have permitted :
      (sessionSystem conf inet (Waits stream)).enabled
        (waitingSession stream) (sampleTurn count) :=
    rereads_sampleTurn count
  rcases takes_socksStep conf inet (waitingSession stream) permitted with
    ⟨after, handled, takes⟩
  have reachable := start.next permitted handled
  have looks :
      looked (sampleTurn count) (waitingSession stream) =
        stream.take (count + 1) := by
    have within : count + 1 ≤ socksHsBuff - 0 - 1 := by omega
    simp only [looked, sampleTurn, Arrival.shown, requested,
      waitingSession, sampleClient, List.length_nil]
    rw [List.take_take, Nat.min_eq_right within]
  have waits : after.client.phase = .recvReply := by
    cases takes with
    | told finished => exact absurd rfl finished
    | stalls sending | breaks sending | writes sending | wrote sending =>
        cases sending
    | idles receiving arrival => rfl
    | loses receiving arrival =>
        rcases arrival with ⟨_, _, impossible⟩ | ⟨_, nothing⟩
        · cases impossible
        · rw [looks] at nothing
          exact absurd nothing some_byte
    | reads receiving arrived received =>
        rw [received.phase, looks]
        simp [verdict, replyVerdict, waitingSession, sampleClient,
          incomplete]
  refine ⟨after, reachable, waits, ?_⟩
  cases reads_of_reachable reachable with
  | finished phase =>
      rw [waits] at phase
      rcases phase with impossible | impossible
      · cases impossible
      · cases impossible
  | waits _ read _ =>
      rw [accumulated_eq read]
      cases takes with
      | told finished => exact absurd rfl finished
      | stalls sending | breaks sending | writes sending
      | wrote sending =>
          cases sending
      | idles receiving arrival =>
          rcases arrival with impossible | impossible
          · cases impossible
          · cases impossible
      | loses receiving arrival => cases waits
      | reads receiving arrived received =>
          rw [received.waiting waits, looks]
          rfl

/-- Bytes which are no reply are waited upon. -/
theorem exists_not_patient
    (conf : Nspconf) (inet : Inet) {stream : List UInt8}
    (hopeless : ¬ Admissible stream) :
    ∃ session,
      (sessionSystem conf inet (Waits stream)).Reachable session ∧
        ¬ Patient stream session := by
  have stuck :
      ∀ count, count + 1 < socksHsBuff →
        parseReply inet (stream.take (count + 1)) = none →
        ¬ Admissible (stream.take (count + 1)) →
        ∃ session,
          (sessionSystem conf inet (Waits stream)).Reachable session ∧
            ¬ Patient stream session := by
    intro count small incomplete inadmissible
    have some_byte : stream.take (count + 1) ≠ [] := by
      intro nothing
      rw [nothing] at inadmissible
      refine inadmissible ⟨?_, ?_⟩
      · intro ver impossible
        cases impossible
      · intro atype impossible
        cases impossible
    rcases exists_accumulated conf inet small incomplete some_byte with
      ⟨session, reachable, phase, seen⟩
    refine ⟨session, reachable, ?_⟩
    intro patient
    have unfinished := patient.unfinished phase (seen ▸ some_byte)
    rw [seen] at unfinished
    exact inadmissible unfinished.admissible
  match stream, hopeless with
  | [], hopeless =>
      refine absurd ⟨?_, ?_⟩ hopeless
      · intro ver impossible
        cases impossible
      · intro atype impossible
        cases impossible
  | ver :: rest, hopeless =>
      by_cases version : ver = 5
      · match rest, hopeless with
        | [], hopeless | [_], hopeless | [_, _], hopeless =>
            refine absurd ⟨?_, ?_⟩ hopeless
            · intro first same
              cases same
              exact version
            · intro atype impossible
              cases impossible
        | rep :: rsv :: atype :: buffer, hopeless =>
            have unknown : atype ∉ [1, 3, 4] := by
              intro known
              refine hopeless ⟨?_, ?_⟩
              · intro first same
                cases same
                exact version
              · intro fourth same
                cases same
                exact known
            refine stuck 3 (by decide) ?_ ?_
            · simp only [List.mem_cons, List.not_mem_nil, or_false,
                not_or] at unknown
              rcases unknown with ⟨v4, domain, v6⟩
              simp [parseReply, socks5HdrGet, socks5AddrGet, getAddr, v4,
                domain, v6]
            · intro admissible
              exact unknown (admissible.atype atype rfl)
      · refine stuck 0 (by decide) rfl ?_
        intro admissible
        exact version (admissible.version ver rfl)

/--
The client waits only for what can still be a reply, whatever the chunking,
exactly when the version and the address type in the bytes of the server are
those of one.
-/
theorem socks_reply_patient_iff
    (conf : Nspconf) (inet : Inet) (stream : List UInt8) :
    (∀ session,
      (sessionSystem conf inet (Waits stream)).Reachable session →
      Patient stream session) ↔
    Admissible stream := by
  constructor
  · intro claimed
    by_contra hopeless
    rcases exists_not_patient conf inet hopeless with
      ⟨session, reachable, impatient⟩
    exact impatient (claimed session reachable)
  · intro admissible session reachable
    exact patient_of_reads admissible (reads_of_reachable reachable)

/-- A reply with an unknown address type. -/
theorem socks_reply_unknown_atype :
    ¬ ∀ session,
      (sessionSystem (sampleConf [] []) sampleInet
        (Waits [5, 0, 0, 9, 127, 0, 0, 1, 0, 80])).Reachable session →
      Patient [5, 0, 0, 9, 127, 0, 0, 1, 0, 80] session := by
  intro claimed
  have hopeless : ¬ Admissible [5, 0, 0, 9, 127, 0, 0, 1, 0, 80] := by
    intro admissible
    have known := admissible.atype 9 rfl
    revert known
    decide
  rcases exists_not_patient (sampleConf [] []) sampleInet hopeless with
    ⟨session, reachable, impatient⟩
  exact impatient (claimed session reachable)

end Nsproxy.Handshake.SocksWaiting
