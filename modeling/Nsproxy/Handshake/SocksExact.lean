import Mathlib.Tactic.Common
import Nsproxy.Lib.Transition
import Nsproxy.Handshake.SocksSteps

/-!
# The SOCKS5 handshake reads the handshake

A server which grants a request sends a method selection, the result of the
authentication if it asked for one, and a reply.  `Opened` says that the
client has read exactly these messages, and that the rest of the stream is
still in the socket.

`Aligned` is the invariant: what was read of the stream, phase by phase.  It
does not depend on how the stream arrived.  When the stream has that form and
no answer comes before its question, every verdict on the way is favourable,
and every byte which is exchanged brings the client nearer to forwarding.
-/

namespace Nsproxy.Handshake.SocksExact

open Nsproxy.Conf
open Nsproxy.Lib.Framing
open Nsproxy.Lib.Transition
open Nsproxy.Lwip.Opts
open Nsproxy.Skutils
open Nsproxy.Socks
open Nsproxy.Handshake.Socket
open Nsproxy.Handshake.SocksReply
open Nsproxy.Handshake.SocksSteps

/-! ## What the server sends -/

/-- The messages before the reply. -/
def greeting (auth : Bool) : List UInt8 :=
  if auth then [5, 2, 1, 0] else [5, 0]

/-- The messages of a server which grants the request. -/
structure Opening where
  auth : Bool
  reply : Reply
  version : reply.ver = 5
  granted : reply.rep = 0

def Opening.bytes (opening : Opening) : List UInt8 :=
  greeting opening.auth ++ opening.reply.encode

/-- The client has read these messages and nothing else. -/
structure Opens
    (inet : Inet) (stream : List UInt8) (session : SocksSession)
    (opening : Opening) : Prop where
  read : stream = opening.bytes ++ session.unread
  relay :
    session.client.type = .udpAssociate →
      0 ∉ opening.reply.addr.text inet →
      session.client.relay = some (opening.reply.relay inet)

/-- How much of the stream was read in which phase. -/
def Aligned (inet : Inet) (stream : List UInt8) (session : SocksSession) :
    Prop :=
  match session.client.phase with
  | .failed => True
  | .sendMethod => stream = session.unread
  | .recvMethod =>
      stream = session.client.hsbuff ++ session.unread ∧
        session.client.hsbuff.length < 2
  | .sendAuth => stream = [5, 2] ++ session.unread
  | .recvAuth =>
      stream = [5, 2] ++ session.client.hsbuff ++ session.unread ∧
        session.client.hsbuff.length < 2
  | .sendRequest => ∃ auth, stream = greeting auth ++ session.unread
  | .recvReply =>
      (∃ auth,
        stream =
          greeting auth ++ session.client.hsbuff ++ session.unread) ∧
        parseReply inet session.client.hsbuff = none
  | .forwarding => ∃ opening, Opens inet stream session opening

/-! ## What was seen -/

theorem looked_isPrefix (turn : SocketTurn) (session : SocksSession) :
    looked turn session <+: session.unread :=
  take_shown_prefix _ _ _

/-- The bytes which were seen, and those behind them. -/
theorem looked_append (turn : SocketTurn) (session : SocksSession) :
    looked turn session ++
        session.unread.drop (looked turn session).length =
      session.unread := by
  rcases looked_isPrefix turn session with ⟨rest, whole⟩
  rw [← whole, List.drop_left' rfl, whole]

/-- The whole reply was read, and nothing behind it. -/
theorem reply_append
    {inet : Inet} {turn : SocketTurn} {session : SocksSession}
    (phase : session.client.phase = .recvReply)
    (incomplete : parseReply inet session.client.hsbuff = none)
    {reply : Reply} {rest : List UInt8}
    (seen :
      session.client.hsbuff ++ looked turn session =
        reply.encode ++ rest) :
    session.client.hsbuff ++ session.unread =
      reply.encode ++
        session.unread.drop (consumed inet turn session) := by
  have ends :
      (replyFinder inet).ends
          (session.client.hsbuff ++ looked turn session) =
        some reply.encode.length := by
    rw [seen]
    exact replyEnds_encode inet reply rest
  have size :
      session.client.hsbuff.length + consumed inet turn session =
        reply.encode.length := by
    simp only [consumed, phase]
    rw [replyLength_eq inet session.client _ incomplete]
    exact (replyFinder inet).taken_of_found
      (parseReply_eq_none.mp incomplete) ends
  have front : reply.encode <+: session.client.hsbuff ++ session.unread := by
    refine (List.prefix_append reply.encode rest).trans ?_
    rw [← seen]
    exact (List.prefix_append_right_inj _).mpr
      (looked_isPrefix turn session)
  rcases front with ⟨back, whole⟩
  have dropped := congrArg (List.drop reply.encode.length) whole
  rw [List.drop_left' rfl, ← size, List.drop_length_add_append] at dropped
  rw [← dropped, whole]

/-! ## Soundness -/

section Steps

variable {conf : Nspconf} {inet : Inet} {stream : List UInt8}
  {session after : SocksSession} {turn : SocketTurn}

/-- Sending reads nothing. -/
theorem Aligned.sending
    (aligned : Aligned inet stream session)
    (sending : isSending session.client.phase = true)
    (unread : after.unread = session.unread)
    (phase : after.client.phase = session.client.phase) :
    Aligned inet stream after := by
  unfold Aligned at aligned ⊢
  rw [phase, unread]
  cases present : session.client.phase with
  | sendMethod | sendAuth | sendRequest =>
      simp only [present] at aligned ⊢
      exact aligned
  | _ =>
      rw [present] at sending
      cases sending

/-- The next phase begins with an empty buffer. -/
theorem Aligned.sent
    (aligned : Aligned inet stream session)
    (sending : isSending session.client.phase = true)
    (unread : after.unread = session.unread)
    (empty : after.client.hsbuff = [])
    (phase : after.client.phase = sentPhase session.client.phase) :
    Aligned inet stream after := by
  unfold Aligned at aligned ⊢
  rw [phase, unread, empty]
  cases present : session.client.phase with
  | sendMethod =>
      simp only [present, sentPhase] at aligned ⊢
      exact ⟨aligned, Nat.zero_lt_two⟩
  | sendAuth =>
      simp only [present, sentPhase] at aligned ⊢
      exact ⟨aligned, Nat.zero_lt_two⟩
  | sendRequest =>
      simp only [present, sentPhase] at aligned ⊢
      rcases aligned with ⟨auth, read⟩
      refine ⟨⟨auth, ?_⟩, rfl⟩
      rw [List.append_nil]
      exact read
  | _ =>
      rw [present] at sending
      cases sending

theorem Aligned.method
    (aligned : Aligned inet stream session)
    (phase : session.client.phase = .recvMethod)
    (received :
      Received inet session.client after.client
        (session.client.hsbuff ++ looked turn session))
    (unread :
      after.unread = session.unread.drop (consumed inet turn session)) :
    Aligned inet stream after := by
  simp only [Aligned, phase] at aligned
  have behind :
      stream =
        (session.client.hsbuff ++ looked turn session) ++
          after.unread := by
    simp only [unread, consumed, phase]
    rw [List.append_assoc, looked_append]
    exact aligned.1
  have verdict := received.phase
  simp only [phase, SocksSteps.verdict] at verdict
  rcases methodVerdict_cases
      (session.client.hsbuff ++ looked turn session) with
    ⟨short, waits⟩ | ⟨same, auth⟩ | ⟨same, plain⟩ | ⟨_, _, fails⟩
  · rw [waits] at verdict
    have kept := received.waiting (verdict.trans phase.symm)
    simp only [Aligned, verdict, kept]
    exact ⟨behind, short⟩
  · rw [auth] at verdict
    simp only [Aligned, verdict]
    rw [same] at behind
    exact behind
  · rw [plain] at verdict
    simp only [Aligned, verdict]
    rw [same] at behind
    exact ⟨false, behind⟩
  · rw [fails] at verdict
    simp only [Aligned, verdict]

theorem Aligned.auth
    (aligned : Aligned inet stream session)
    (phase : session.client.phase = .recvAuth)
    (received :
      Received inet session.client after.client
        (session.client.hsbuff ++ looked turn session))
    (unread :
      after.unread = session.unread.drop (consumed inet turn session)) :
    Aligned inet stream after := by
  simp only [Aligned, phase] at aligned
  have behind :
      stream =
        [5, 2] ++ (session.client.hsbuff ++ looked turn session) ++
          after.unread := by
    simp only [unread, consumed, phase]
    rw [List.append_assoc, List.append_assoc, looked_append,
      ← List.append_assoc]
    exact aligned.1
  have verdict := received.phase
  simp only [phase, SocksSteps.verdict] at verdict
  rcases authVerdict_cases
      (session.client.hsbuff ++ looked turn session) with
    ⟨short, waits⟩ | ⟨same, passed⟩ | ⟨_, fails⟩
  · rw [waits] at verdict
    have kept := received.waiting (verdict.trans phase.symm)
    simp only [Aligned, verdict, kept]
    exact ⟨behind, short⟩
  · rw [passed] at verdict
    simp only [Aligned, verdict]
    rw [same] at behind
    exact ⟨true, behind⟩
  · rw [fails] at verdict
    simp only [Aligned, verdict]

theorem Aligned.reply
    (aligned : Aligned inet stream session)
    (phase : session.client.phase = .recvReply)
    (received :
      Received inet session.client after.client
        (session.client.hsbuff ++ looked turn session))
    (unread :
      after.unread = session.unread.drop (consumed inet turn session)) :
    Aligned inet stream after := by
  simp only [Aligned, phase] at aligned
  rcases aligned with ⟨⟨auth, whole⟩, incomplete⟩
  have verdict := received.phase
  simp only [phase, SocksSteps.verdict, replyVerdict] at verdict
  cases read :
      parseReply inet
        (session.client.hsbuff ++ looked turn session) with
  | none =>
      simp only [read] at verdict
      have kept := received.waiting (verdict.trans phase.symm)
      simp only [Aligned, verdict, kept, unread]
      refine ⟨⟨auth, ?_⟩, read⟩
      simp only [consumed, phase, replyLength, read]
      rw [List.append_assoc, List.append_assoc, looked_append,
        ← List.append_assoc]
      exact whole
  | some found =>
      rcases found with ⟨hdr, relay, rest⟩
      rcases parseReply_some read with ⟨reply, seen, rfl, rfl⟩
      simp only [read] at verdict
      split at verdict
      · simp only [Aligned, verdict]
      · next good =>
          simp only [not_or, not_not] at good
          simp only [Aligned, verdict]
          refine ⟨⟨auth, reply, good.1, good.2⟩, ?_, ?_⟩
          · rw [whole, List.append_assoc,
              reply_append phase incomplete seen, unread, Opening.bytes,
              List.append_assoc]
          · intro type nulFree
            rw [received.type] at type
            rw [received.relay verdict, relayVerdict, read]
            simp only [type, if_true, Reply.relay]
            rw [cstr_eq_self nulFree]

theorem aligned_takes
    (takes : Takes conf inet session turn after)
    (aligned : Aligned inet stream session) :
    Aligned inet stream after := by
  cases takes with
  | told finished =>
      exact aligned
  | stalls sending assembled send =>
      exact aligned.sending sending rfl rfl
  | breaks sending assembled send broken =>
      trivial
  | writes sending assembled send left =>
      exact aligned.sending sending rfl rfl
  | wrote sending assembled send left =>
      exact aligned.sent sending rfl rfl rfl
  | idles receiving arrival =>
      exact aligned
  | loses receiving arrival =>
      trivial
  | reads receiving arrived received =>
      cases phase : session.client.phase with
      | recvMethod =>
          exact aligned.method phase received rfl
      | recvAuth =>
          exact aligned.auth phase received rfl
      | recvReply =>
          exact aligned.reply phase received rfl
      | _ =>
          rw [phase] at receiving
          cases receiving

end Steps

theorem aligned_begins
    {inet : Inet} {type : SocksType} {addr : Text} {port : UInt16}
    {stream : List UInt8} {session : SocksSession}
    (begins : Begins type addr port stream session) :
    Aligned inet stream session := by
  rcases begins.client with ⟨_, events, same⟩
  simp only [Aligned, same]
  exact begins.2.1.symm

theorem aligned_of_reachable
    {conf : Nspconf} {inet : Inet} {type : SocksType} {addr : Text}
    {port : UInt16} {stream : List UInt8} {session : SocksSession}
    (reachable :
      (sessionSystem conf inet
        (Begins type addr port stream)).Reachable session) :
    Aligned inet stream session := by
  apply reachable.invariant
  · intro source begins
    exact aligned_begins begins
  · intro source turn target aligned rereads handled
    exact aligned_takes (takes_of_handled rereads handled) aligned

/-! ## Completeness -/

/-- What the server may have sent when the client waits in this phase. -/
def answered : SocksPhase → Option Nat
  | .recvMethod => some 2
  | .recvAuth => some 4
  | _ => none

/--
No call fails, and nothing arrives of a message whose question the client has
not asked.
-/
def Polite (stream : List UInt8) (session : SocksSession)
    (turn : SocketTurn) : Prop :=
  turn.Sound ∧
    ∀ more limit, turn.arrival = .shows more →
      answered session.client.phase = some limit →
      stream.length - session.unread.length + (more + 1) ≤ limit

/-- The sessions with a polite server. -/
def politeSystem
    (conf : Nspconf) (inet : Inet) (type : SocksType) (addr : Text)
    (port : UInt16) (stream : List UInt8) :
    System Fault SocksSession SocketTurn :=
  (sessionSystem conf inet (Begins type addr port stream)).restrict
    (fun _ => True) (Polite stream)

/-- What is still to come before the rest of the stream. -/
def Awaits (inet : Inet) (opening : Opening) (rest : List UInt8)
    (session : SocksSession) : Prop :=
  match session.client.phase with
  | .failed => False
  | .sendMethod => session.unread = opening.bytes ++ rest
  | .recvMethod =>
      session.client.hsbuff ++ session.unread = opening.bytes ++ rest ∧
        session.client.hsbuff.length < 2
  | .sendAuth =>
      opening.auth = true ∧
        session.unread = [1, 0] ++ (opening.reply.encode ++ rest)
  | .recvAuth =>
      opening.auth = true ∧
        session.client.hsbuff ++ session.unread =
          [1, 0] ++ (opening.reply.encode ++ rest) ∧
        session.client.hsbuff.length < 2
  | .sendRequest => session.unread = opening.reply.encode ++ rest
  | .recvReply =>
      session.client.hsbuff ++ session.unread =
          opening.reply.encode ++ rest ∧
        parseReply inet session.client.hsbuff = none
  | .forwarding => session.unread = rest

theorem greeting_append_inj
    {first second : Bool} {front back : List UInt8}
    (same : greeting first ++ front = greeting second ++ back) :
    first = second ∧ front = back := by
  cases first with
  | false =>
      cases second with
      | false => exact ⟨rfl, by simpa [greeting] using same⟩
      | true => simp [greeting] at same
  | true =>
      cases second with
      | false => simp [greeting] at same
      | true => exact ⟨rfl, by simpa [greeting] using same⟩

theorem greeting_auth
    {auth : Bool} {front back : List UInt8}
    (same : [5, 2] ++ front = greeting auth ++ back) :
    auth = true ∧ front = [1, 0] ++ back := by
  cases auth with
  | false => simp [greeting] at same
  | true => exact ⟨rfl, by simpa [greeting] using same⟩

theorem encode_append_inj
    {first second : Reply} {front back : List UInt8} (inet : Inet)
    (same : first.encode ++ front = second.encode ++ back) :
    front = back := by
  have early := replyEnds_encode inet first front
  rw [same, replyEnds_encode] at early
  exact (List.append_inj same (Option.some.inj early).symm).2

theorem awaits_of_aligned
    {inet : Inet} {stream rest : List UInt8} {session : SocksSession}
    {opening : Opening} (form : stream = opening.bytes ++ rest)
    (aligned : Aligned inet stream session)
    (unfailed : session.client.phase ≠ .failed) :
    Awaits inet opening rest session := by
  have parts :
      stream = greeting opening.auth ++ (opening.reply.encode ++ rest) := by
    rw [form, Opening.bytes, List.append_assoc]
  cases phase : session.client.phase with
  | failed =>
      exact absurd phase unfailed
  | sendMethod =>
      simp only [Aligned, phase] at aligned
      simp only [Awaits, phase]
      exact aligned.symm.trans form
  | recvMethod =>
      simp only [Aligned, phase] at aligned
      simp only [Awaits, phase]
      exact ⟨aligned.1.symm.trans form, aligned.2⟩
  | sendAuth =>
      simp only [Aligned, phase] at aligned
      simp only [Awaits, phase]
      exact greeting_auth (aligned.symm.trans parts)
  | recvAuth =>
      simp only [Aligned, phase, List.append_assoc] at aligned
      simp only [Awaits, phase]
      have both := greeting_auth (aligned.1.symm.trans parts)
      exact ⟨both.1, both.2, aligned.2⟩
  | sendRequest =>
      simp only [Aligned, phase] at aligned
      simp only [Awaits, phase]
      rcases aligned with ⟨auth, read⟩
      exact (greeting_append_inj (read.symm.trans parts)).2
  | recvReply =>
      simp only [Aligned, phase, List.append_assoc] at aligned
      simp only [Awaits, phase]
      rcases aligned with ⟨⟨auth, read⟩, incomplete⟩
      exact
        ⟨(greeting_append_inj (read.symm.trans parts)).2, incomplete⟩
  | forwarding =>
      simp only [Aligned, phase] at aligned
      simp only [Awaits, phase]
      rcases aligned with ⟨other, opens⟩
      have read := opens.read
      rw [Opening.bytes, List.append_assoc] at read
      have same := (greeting_append_inj (read.symm.trans parts)).2
      exact encode_append_inj inet same

/-- The reply which is awaited is not yet in the buffer. -/
theorem length_lt_encode
    {inet : Inet} {reply : Reply} {buffer unread rest : List UInt8}
    (whole : buffer ++ unread = reply.encode ++ rest)
    (incomplete : parseReply inet buffer = none) :
    buffer.length < reply.encode.length := by
  have ends : (replyFinder inet).ends (buffer ++ unread) =
      some reply.encode.length := by
    rw [whole]
    exact replyEnds_encode inet reply rest
  exact (replyFinder inet).length_lt_of_incomplete
    (List.prefix_append _ _) ends (parseReply_eq_none.mp incomplete)

/-- Something is unread as long as a message is not in the buffer. -/
theorem unread_ne_nil
    {buffer unread message rest : List UInt8}
    (whole : buffer ++ unread = message ++ rest)
    (shorter : buffer.length < message.length) :
    unread ≠ [] := by
  rintro rfl
  have lengths := congrArg List.length whole
  rw [List.append_nil, List.length_append] at lengths
  omega

section Complete

variable {conf : Nspconf} {inet : Inet} {stream rest : List UInt8}
  {session after : SocksSession} {turn : SocketTurn} {opening : Opening}

/-- While the handshake lasts the stream does not end. -/
theorem Awaits.arrives
    (awaits : Awaits inet opening rest session)
    (receiving : isReceiving session.client.phase = true)
    {more : Nat} (arrival : turn.arrival = .shows more) :
    looked turn session ≠ [] := by
  cases phase : session.client.phase with
  | recvMethod =>
      simp only [Awaits, phase] at awaits
      have longer :
          session.client.hsbuff.length < opening.bytes.length := by
        have greeted : 2 ≤ opening.bytes.length := by
          rw [Opening.bytes, List.length_append]
          cases opening.auth with
          | false => exact Nat.le_add_right 2 _
          | true => exact Nat.le_add_right_of_le (by decide)
        exact Nat.lt_of_lt_of_le awaits.2 greeted
      refine take_shown_ne_nil arrival
        (unread_ne_nil awaits.1 longer) ?_
      simp only [requested, phase, socksHsBuff]
      omega
  | recvAuth =>
      simp only [Awaits, phase] at awaits
      refine take_shown_ne_nil arrival
        (unread_ne_nil awaits.2.1 awaits.2.2) ?_
      simp only [requested, phase, socksHsBuff]
      omega
  | recvReply =>
      simp only [Awaits, phase] at awaits
      have longer := length_lt_encode awaits.1 awaits.2
      have fits := length_encode_lt opening.reply
      refine take_shown_ne_nil arrival
        (unread_ne_nil awaits.1 longer) ?_
      simp only [requested, phase, socksHsBuff] at fits ⊢
      omega
  | _ =>
      rw [phase] at receiving
      cases receiving

/-- The first two bytes of the greeting are not refused. -/
theorem methodVerdict_unfailed
    {auth : Bool} {seen rest : List UInt8}
    (front : seen <+: greeting auth ++ rest) (short : seen.length ≤ 2) :
    methodVerdict seen ≠ .failed := by
  rcases methodVerdict_cases seen with
    ⟨_, same⟩ | ⟨_, same⟩ | ⟨_, same⟩ | ⟨notAuth, notPlain, _⟩
  · rw [same]
    exact SocksPhase.noConfusion
  · rw [same]
    exact SocksPhase.noConfusion
  · rw [same]
    exact SocksPhase.noConfusion
  · cases auth with
    | false =>
        refine absurd ?_ notPlain
        exact
          List.prefix_of_prefix_length_le front (List.prefix_append _ _)
            short
    | true =>
        refine absurd ?_ notAuth
        exact
          List.prefix_of_prefix_length_le front ⟨[1, 0] ++ rest, rfl⟩
            short

theorem authVerdict_unfailed
    {seen rest : List UInt8} (front : seen <+: [1, 0] ++ rest)
    (short : seen.length ≤ 2) :
    authVerdict seen ≠ .failed := by
  rcases authVerdict_cases seen with ⟨_, same⟩ | ⟨_, same⟩ | ⟨bad, _⟩
  · rw [same]
    exact SocksPhase.noConfusion
  · rw [same]
    exact SocksPhase.noConfusion
  · refine absurd ?_ bad
    exact
      List.prefix_of_prefix_length_le front (List.prefix_append _ _) short

/-- A reply which grants the request is not refused. -/
theorem replyVerdict_unfailed
    (awaits :
      session.client.hsbuff ++ session.unread =
        opening.reply.encode ++ rest)
    (phase : session.client.phase = .recvReply)
    (incomplete : parseReply inet session.client.hsbuff = none) :
    replyVerdict inet (session.client.hsbuff ++ looked turn session) ≠
      .failed := by
  simp only [replyVerdict]
  cases read :
      parseReply inet (session.client.hsbuff ++ looked turn session) with
  | none => exact SocksPhase.noConfusion
  | some found =>
      rcases found with ⟨hdr, relay, behind⟩
      rcases parseReply_some read with ⟨reply, seen, rfl, _⟩
      have whole := reply_append phase incomplete seen
      have read := parseReply_encode inet opening.reply rest
      rw [← awaits, whole, parseReply_encode] at read
      have same : reply.hdr = opening.reply.hdr :=
        congrArg Prod.fst (Option.some.inj read)
      have good : ¬ (reply.hdr.ver ≠ 5 ∨ reply.hdr.cmd ≠ 0) := by
        rw [same, Reply.hdr]
        simp [opening.version, opening.granted]
      simp only [if_neg good]
      exact SocksPhase.noConfusion

/-- A polite server never sends what the client would refuse. -/
theorem verdict_unfailed
    (form : stream = opening.bytes ++ rest)
    (aligned : Aligned inet stream session)
    (polite : Polite stream session turn)
    (receiving : isReceiving session.client.phase = true)
    (arrived : looked turn session ≠ []) :
    verdict inet session.client.phase
        (session.client.hsbuff ++ looked turn session) ≠
      .failed := by
  rcases shows_of_take_shown arrived with ⟨more, arrival, found⟩
  have atMost : (looked turn session).length ≤ more + 1 := found
  have front := looked_isPrefix turn session
  have parts :
      stream = greeting opening.auth ++ (opening.reply.encode ++ rest) := by
    rw [form, Opening.bytes, List.append_assoc]
  cases phase : session.client.phase with
  | recvMethod =>
      simp only [Aligned, phase] at aligned
      have limit := polite.2 more 2 arrival (by rw [phase]; rfl)
      have seen :
          session.client.hsbuff ++ looked turn session <+: stream := by
        rw [aligned.1]
        exact (List.prefix_append_right_inj _).mpr front
      have short :
          (session.client.hsbuff ++ looked turn session).length ≤ 2 := by
        rw [aligned.1] at limit
        simp only [List.length_append] at limit ⊢
        omega
      rw [parts] at seen
      exact methodVerdict_unfailed seen short
  | recvAuth =>
      have awaits := awaits_of_aligned form aligned
        (by rw [phase]; exact SocksPhase.noConfusion)
      simp only [Aligned, phase] at aligned
      simp only [Awaits, phase] at awaits
      have limit := polite.2 more 4 arrival (by rw [phase]; rfl)
      have seen :
          session.client.hsbuff ++ looked turn session <+:
            [1, 0] ++ (opening.reply.encode ++ rest) := by
        rw [← awaits.2.1]
        exact (List.prefix_append_right_inj _).mpr front
      have short :
          (session.client.hsbuff ++ looked turn session).length ≤ 2 := by
        rw [aligned.1] at limit
        simp only [List.length_append, List.length_cons,
          List.length_nil] at limit ⊢
        omega
      exact authVerdict_unfailed seen short
  | recvReply =>
      have awaits := awaits_of_aligned form aligned
        (by rw [phase]; exact SocksPhase.noConfusion)
      simp only [Awaits, phase] at awaits
      exact replyVerdict_unfailed awaits.1 phase awaits.2
  | _ =>
      rw [phase] at receiving
      cases receiving

theorem unfailed_takes
    (form : stream = opening.bytes ++ rest)
    (aligned : Aligned inet stream session)
    (unfailed : session.client.phase ≠ .failed)
    (polite : Polite stream session turn)
    (takes : Takes conf inet session turn after) :
    after.client.phase ≠ .failed := by
  have awaits := awaits_of_aligned form aligned unfailed
  cases takes with
  | told finished =>
      exact unfailed
  | stalls sending assembled send =>
      exact unfailed
  | breaks sending assembled send broken =>
      exact absurd (polite.1.1 _ send) broken
  | writes sending assembled send left =>
      exact unfailed
  | wrote sending assembled send left =>
      cases phase : session.client.phase with
      | sendMethod | sendAuth | sendRequest =>
          exact SocksPhase.noConfusion
      | _ =>
          rw [phase] at sending
          cases sending
  | idles receiving arrival =>
      exact unfailed
  | loses receiving arrival =>
      rcases arrival with ⟨errno, _, fails⟩ | ⟨⟨more, shows⟩, nothing⟩
      · exact absurd fails (polite.1.2 errno)
      · exact absurd nothing (awaits.arrives receiving shows)
  | reads receiving arrived received =>
      rw [received.phase]
      exact verdict_unfailed form aligned polite receiving arrived

end Complete

/-! ## Progress -/

def isTransfer : Entry SocksPhase → Bool
  | .assembled _ _ => false
  | _ => true

/-- The events in which bytes were sent or read. -/
def transfers (journal : List (Entry SocksPhase)) : Nat :=
  journal.countP isTransfer

/-- The socket is ready for what the client waits for. -/
def Ready (session : SocksSession) (turn : SocketTurn) : Prop :=
  (isSending session.client.phase = true →
      ∃ more, turn.send = .accept more) ∧
    (isReceiving session.client.phase = true →
      ∃ more, turn.arrival = .shows more)

/-- The bytes of the authentication, in both directions. -/
def authSize (conf : Nspconf) (opening : Opening) : Nat :=
  if opening.auth then (authMessage conf).length + 2 else 0

/-- The bytes which the handshake still has to exchange. -/
def remaining
    (conf : Nspconf) (opening : Opening) (request : List UInt8)
    (session : SocksSession) : Nat :=
  let reply := opening.reply.encode.length
  let buffer := session.client.hsbuff
  match session.client.phase with
  | .sendMethod =>
      (offered (methodMessage conf) buffer).length + 2 +
        authSize conf opening + request.length + reply
  | .recvMethod =>
      2 - buffer.length + authSize conf opening + request.length + reply
  | .sendAuth =>
      (offered (authMessage conf) buffer).length + 2 + request.length +
        reply
  | .recvAuth => 2 - buffer.length + request.length + reply
  | .sendRequest => (offered request buffer).length + reply
  | .recvReply => reply - buffer.length
  | _ => 0

/-- The bytes of the whole handshake. -/
def exchange
    (conf : Nspconf) (opening : Opening) (request : List UInt8) : Nat :=
  (methodMessage conf).length + 2 + authSize conf opening +
    request.length + opening.reply.encode.length

/-- In a sending phase only the bytes which are offered change. -/
theorem remaining_sending
    {conf : Nspconf} {inet : Inet} (opening : Opening)
    {request message buffer : List UInt8} {session after : SocksSession}
    (requested : requestMessage inet session.client = some request)
    (sending : isSending session.client.phase = true)
    (assembled :
      handshakeMessage conf inet session.client = some message)
    (phase : after.client.phase = session.client.phase)
    (buffered : after.client.hsbuff = buffer) :
    remaining conf opening request after +
        (offered message session.client.hsbuff).length =
      remaining conf opening request session +
        (offered message buffer).length := by
  cases present : session.client.phase with
  | sendMethod =>
      simp only [handshakeMessage, present, Option.some.injEq]
        at assembled
      simp only [remaining, phase, present, buffered, assembled]
      omega
  | sendAuth =>
      simp only [handshakeMessage, present, Option.some.injEq]
        at assembled
      simp only [remaining, phase, present, buffered, assembled]
      omega
  | sendRequest =>
      simp only [handshakeMessage, present, requested,
        Option.some.injEq] at assembled
      simp only [remaining, phase, present, buffered, assembled]
      omega
  | _ =>
      rw [present] at sending
      cases sending

/-- When a message is through, only its bytes are gone. -/
theorem remaining_sent
    {conf : Nspconf} {inet : Inet} (opening : Opening)
    {request message : List UInt8} {session after : SocksSession}
    (requested : requestMessage inet session.client = some request)
    (sending : isSending session.client.phase = true)
    (assembled :
      handshakeMessage conf inet session.client = some message)
    (phase : after.client.phase = sentPhase session.client.phase)
    (empty : after.client.hsbuff = []) :
    remaining conf opening request after +
        (offered message session.client.hsbuff).length =
      remaining conf opening request session := by
  cases present : session.client.phase with
  | sendMethod =>
      simp only [handshakeMessage, present, Option.some.injEq]
        at assembled
      simp only [remaining, phase, present, sentPhase, empty, assembled,
        List.length_nil]
      omega
  | sendAuth =>
      simp only [handshakeMessage, present, Option.some.injEq]
        at assembled
      simp only [remaining, phase, present, sentPhase, empty, assembled,
        List.length_nil]
      omega
  | sendRequest =>
      simp only [handshakeMessage, present, requested,
        Option.some.injEq] at assembled
      simp only [remaining, phase, present, sentPhase, empty, assembled,
        List.length_nil]
      omega
  | _ =>
      rw [present] at sending
      cases sending

theorem remaining_reads
    {conf : Nspconf} {inet : Inet} {opening : Opening}
    {request rest : List UInt8} {session after : SocksSession}
    {turn : SocketTurn}
    (awaits : Awaits inet opening rest session)
    (awaitsAfter : Awaits inet opening rest after)
    (receiving : isReceiving session.client.phase = true)
    (arrived : looked turn session ≠ [])
    (received :
      Received inet session.client after.client
        (session.client.hsbuff ++ looked turn session)) :
    remaining conf opening request after <
      remaining conf opening request session := by
  have some_byte := List.length_pos_iff.mpr arrived
  have verdict := received.phase
  cases phase : session.client.phase with
  | recvMethod =>
      simp only [Awaits, phase] at awaits
      simp only [phase, SocksSteps.verdict] at verdict
      rcases methodVerdict_cases
          (session.client.hsbuff ++ looked turn session) with
        ⟨short, waits⟩ | ⟨same, auth⟩ | ⟨same, plain⟩ | ⟨_, _, fails⟩
      · rw [waits] at verdict
        have kept := received.waiting (verdict.trans phase.symm)
        simp only [remaining, phase, verdict, kept, List.length_append]
          at short ⊢
        omega
      · rw [auth] at verdict
        have empty : after.client.hsbuff = [] := by
          apply received.cleared
          · rw [verdict, phase]
            exact SocksPhase.noConfusion
          · rw [verdict]
            exact SocksPhase.noConfusion
        simp only [Awaits, verdict] at awaitsAfter
        simp only [remaining, phase, verdict, empty, offered, authSize,
          if_pos awaitsAfter.1, if_true]
        omega
      · rw [plain] at verdict
        have empty : after.client.hsbuff = [] := by
          apply received.cleared
          · rw [verdict, phase]
            exact SocksPhase.noConfusion
          · rw [verdict]
            exact SocksPhase.noConfusion
        simp only [remaining, phase, verdict, empty, offered, if_true]
        omega
      · rw [fails] at verdict
        simp only [Awaits, verdict] at awaitsAfter
  | recvAuth =>
      simp only [Awaits, phase] at awaits
      simp only [phase, SocksSteps.verdict] at verdict
      rcases authVerdict_cases
          (session.client.hsbuff ++ looked turn session) with
        ⟨short, waits⟩ | ⟨same, passed⟩ | ⟨_, fails⟩
      · rw [waits] at verdict
        have kept := received.waiting (verdict.trans phase.symm)
        simp only [remaining, phase, verdict, kept, List.length_append]
          at short ⊢
        omega
      · rw [passed] at verdict
        have empty : after.client.hsbuff = [] := by
          apply received.cleared
          · rw [verdict, phase]
            exact SocksPhase.noConfusion
          · rw [verdict]
            exact SocksPhase.noConfusion
        simp only [remaining, phase, verdict, empty, offered, if_true]
        omega
      · rw [fails] at verdict
        simp only [Awaits, verdict] at awaitsAfter
  | recvReply =>
      simp only [Awaits, phase] at awaits
      simp only [phase, SocksSteps.verdict, replyVerdict] at verdict
      have longer := length_lt_encode awaits.1 awaits.2
      split at verdict
      · have kept := received.waiting (verdict.trans phase.symm)
        simp only [remaining, phase, verdict, kept, List.length_append]
        omega
      · split at verdict
        · simp only [Awaits, verdict] at awaitsAfter
        · simp only [remaining, phase, verdict]
          omega
  | _ =>
      rw [phase] at receiving
      cases receiving

/-- Something is taken from the socket whenever something has arrived. -/
theorem consumed_pos
    {inet : Inet} {opening : Opening} {rest : List UInt8}
    {session : SocksSession} {turn : SocketTurn}
    (awaits : Awaits inet opening rest session)
    (receiving : isReceiving session.client.phase = true)
    (arrived : looked turn session ≠ []) :
    0 < consumed inet turn session := by
  have some_byte := List.length_pos_iff.mpr arrived
  cases phase : session.client.phase with
  | recvMethod =>
      simpa only [consumed, phase] using some_byte
  | recvAuth =>
      simpa only [consumed, phase] using some_byte
  | recvReply =>
      simp only [Awaits, phase] at awaits
      simp only [consumed, phase]
      rw [replyLength_eq inet _ _ awaits.2]
      exact (replyFinder inet).taken_pos
        (parseReply_eq_none.mp awaits.2) arrived
  | _ =>
      rw [phase] at receiving
      cases receiving

theorem transfers_sendEntries
    (phase : SocksPhase) (message buffer : List UInt8)
    (send : SendAnswer) :
    transfers (sendEntries phase message buffer send) =
      match send with
      | .accept _ => 1
      | .err _ => 0 := by
  cases send with
  | accept more =>
      by_cases empty : buffer = []
      · simp [sendEntries, empty, transfers, isTransfer]
      · simp [sendEntries, empty, transfers, isTransfer]
  | err errno =>
      by_cases empty : buffer = []
      · simp [sendEntries, empty, transfers, isTransfer]
      · simp [sendEntries, empty, transfers]

theorem transfers_append (front back : List (Entry SocksPhase)) :
    transfers (front ++ back) = transfers front + transfers back :=
  List.countP_append

section Progress

variable {conf : Nspconf} {inet : Inet} {opening : Opening}
  {request stream rest : List UInt8} {session after : SocksSession}
  {turn : SocketTurn}

/-- A call which leaves a part of the message to be sent. -/
theorem transfers_sending
    {message buffer : List UInt8}
    (requested : requestMessage inet session.client = some request)
    (sending : isSending session.client.phase = true)
    (assembled :
      handshakeMessage conf inet session.client = some message)
    (phase : after.client.phase = session.client.phase)
    (buffered : after.client.hsbuff = buffer)
    (journal :
      after.journal =
        session.journal ++
          sendEntries session.client.phase message
            session.client.hsbuff turn.send)
    (less :
      (match turn.send with | .accept _ => 1 | .err _ => 0) +
          (offered message buffer).length ≤
        (offered message session.client.hsbuff).length) :
    transfers after.journal + remaining conf opening request after ≤
      transfers session.journal +
        remaining conf opening request session := by
  have same := remaining_sending opening requested sending assembled
    phase buffered
  rw [journal, transfers_append, transfers_sendEntries]
  omega

/-- A call which sends the last part of the message. -/
theorem transfers_sent
    {message : List UInt8} {more : Nat}
    (requested : requestMessage inet session.client = some request)
    (sending : isSending session.client.phase = true)
    (assembled :
      handshakeMessage conf inet session.client = some message)
    (send : turn.send = .accept more)
    (phase : after.client.phase = sentPhase session.client.phase)
    (empty : after.client.hsbuff = [])
    (journal :
      after.journal =
        session.journal ++
          sendEntries session.client.phase message
            session.client.hsbuff turn.send) :
    transfers after.journal + remaining conf opening request after ≤
      transfers session.journal +
        remaining conf opening request session := by
  have through := remaining_sent opening requested sending assembled
    phase empty
  have some_byte :=
    List.length_pos_iff.mpr
      (offered_ne_nil (handshakeMessage_ne_nil sending assembled)
        session.client.hsbuff)
  rw [journal, transfers_append, transfers_sendEntries, send]
  simp only []
  omega

theorem transfers_reads
    (awaits : Awaits inet opening rest session)
    (awaitsAfter : Awaits inet opening rest after)
    (receiving : isReceiving session.client.phase = true)
    (arrived : looked turn session ≠ [])
    (received :
      Received inet session.client after.client
        (session.client.hsbuff ++ looked turn session))
    (journal :
      after.journal =
        session.journal ++
          readEntries session.client.phase
            (session.unread.take (consumed inet turn session))) :
    transfers after.journal + remaining conf opening request after ≤
      transfers session.journal +
        remaining conf opening request session := by
  have fewer : remaining conf opening request after < _ :=
    remaining_reads awaits awaitsAfter receiving arrived received
  have atMost :
      transfers
          (readEntries session.client.phase
            (session.unread.take (consumed inet turn session))) ≤
        1 := by
    simp only [readEntries]
    split
    · exact Nat.zero_le 1
    · exact Nat.le_refl 1
  rw [journal, transfers_append]
  omega

/-- Every transfer takes at least one byte off what remains. -/
theorem transfers_takes
    (requested : requestMessage inet session.client = some request)
    (awaits : Awaits inet opening rest session)
    (awaitsAfter : Awaits inet opening rest after)
    (takes : Takes conf inet session turn after) :
    transfers after.journal + remaining conf opening request after ≤
      transfers session.journal +
        remaining conf opening request session := by
  cases takes with
  | told finished =>
      exact Nat.le_refl _
  | stalls sending assembled send =>
      refine transfers_sending requested sending assembled rfl rfl rfl ?_
      rw [send, offered_offered]
      exact Nat.le_of_eq (Nat.zero_add _)
  | breaks sending assembled send broken =>
      simp only [Awaits] at awaitsAfter
  | writes sending assembled send left =>
      refine transfers_sending requested sending assembled rfl rfl rfl ?_
      have some_byte := List.length_pos_iff.mpr left
      rw [send, offered_of_ne_nil left]
      simp only [List.length_drop] at some_byte ⊢
      omega
  | wrote sending assembled send left =>
      exact transfers_sent requested sending assembled send rfl rfl rfl
  | idles receiving arrival =>
      exact Nat.le_refl _
  | loses receiving arrival =>
      simp only [Awaits] at awaitsAfter
  | reads receiving arrived received =>
      exact transfers_reads awaits awaitsAfter receiving arrived received
        rfl

/-- A turn for which the socket is ready is a transfer. -/
theorem transfers_ready
    (awaits : Awaits inet opening rest session)
    (shaking : session.client.phase ≠ .forwarding)
    (ready : Ready session turn)
    (takes : Takes conf inet session turn after) :
    transfers after.journal = transfers session.journal + 1 := by
  cases takes with
  | told finished =>
      cases phase : session.client.phase with
      | failed =>
          simp only [Awaits, phase] at awaits
      | forwarding =>
          exact absurd phase shaking
      | _ =>
          rw [phase] at finished
          exact absurd rfl finished
  | stalls sending assembled send =>
      rcases ready.1 sending with ⟨more, accepted⟩
      rw [send] at accepted
      cases accepted
  | breaks sending assembled send broken =>
      rcases ready.1 sending with ⟨more, accepted⟩
      rw [send] at accepted
      cases accepted
  | writes sending assembled send left =>
      simp only [transfers_append, transfers_sendEntries, send]
  | wrote sending assembled send left =>
      simp only [transfers_append, transfers_sendEntries, send]
  | idles receiving arrival =>
      rcases ready.2 receiving with ⟨more, shows⟩
      rw [shows] at arrival
      rcases arrival with impossible | impossible
      · cases impossible
      · cases impossible
  | loses receiving arrival =>
      rcases ready.2 receiving with ⟨more, shows⟩
      rcases arrival with ⟨errno, _, fails⟩ | ⟨_, nothing⟩
      · rw [shows] at fails
        cases fails
      · exact absurd nothing (awaits.arrives receiving shows)
  | reads receiving arrived received =>
      have some_byte := consumed_pos awaits receiving arrived
      have unread : session.unread ≠ [] := by
        intro empty
        have front := looked_isPrefix turn session
        rw [empty, List.prefix_nil] at front
        exact arrived front
      have read :
          session.unread.take (consumed inet turn session) ≠ [] := by
        rw [Ne, List.take_eq_nil_iff, not_or]
        exact ⟨Nat.ne_of_gt some_byte, unread⟩
      simp only [transfers_append, readEntries, if_neg read]
      rfl

/-- Once the whole reply has arrived the client forwards. -/
theorem forwards_of_arrived
    (form : stream = opening.bytes ++ rest)
    (aligned : Aligned inet stream session)
    (polite : Polite stream session turn)
    (phase : session.client.phase = .recvReply)
    {more : Nat} (arrival : turn.arrival = .shows more)
    (enough :
      opening.bytes.length ≤
        stream.length - session.unread.length + (more + 1))
    (takes : Takes conf inet session turn after) :
    after.client.phase = .forwarding := by
  have unfailed : session.client.phase ≠ .failed := by
    rw [phase]
    exact SocksPhase.noConfusion
  have receiving : isReceiving session.client.phase = true := by
    rw [phase]
    rfl
  have awaits := awaits_of_aligned form aligned unfailed
  have arrived := awaits.arrives receiving arrival
  have good := verdict_unfailed form aligned polite receiving arrived
  simp only [Awaits, phase] at awaits
  have longer := length_lt_encode awaits.1 awaits.2
  have fits := length_encode_lt opening.reply
  have seen :
      session.client.hsbuff ++ looked turn session <+:
        opening.reply.encode ++ rest := by
    rw [← awaits.1]
    exact (List.prefix_append_right_inj _).mpr
      (looked_isPrefix turn session)
  have size :
      opening.reply.encode.length ≤
        (session.client.hsbuff ++ looked turn session).length := by
    have whole := congrArg List.length awaits.1
    have total := congrArg List.length form
    simp only [List.length_append, looked, arrival, Arrival.shown,
      List.length_take, requested, phase, Opening.bytes]
      at whole total enough ⊢
    omega
  have ends :=
    (replyFinder inet).ends_of_isPrefix seen
      (replyEnds_encode inet opening.reply rest)
  rw [if_pos size] at ends
  cases takes with
  | reads _ _ received =>
      rw [received.phase]
      simp only [phase, verdict, replyVerdict] at good ⊢
      split
      · next incomplete =>
          rw [parseReply_eq_none.mp incomplete] at ends
          cases ends
      · next hdr relay behind read =>
          simp only [read] at good
          split
          · next bad =>
              rw [if_pos bad] at good
              exact absurd rfl good
          · rfl
  | idles _ idle =>
      rw [arrival] at idle
      rcases idle with impossible | impossible
      · cases impossible
      · cases impossible
  | loses _ lost =>
      rcases lost with ⟨errno, _, fails⟩ | ⟨_, nothing⟩
      · rw [arrival] at fails
        cases fails
      · exact absurd nothing arrived
  | told finished =>
      rw [phase] at finished
      exact absurd rfl finished
  | stalls sending | breaks sending | writes sending | wrote sending =>
      rw [phase] at sending
      cases sending

end Progress

/-- An event never changes the target. -/
theorem requestMessage_takes
    {conf : Nspconf} {inet : Inet} {session after : SocksSession}
    {turn : SocketTurn} (takes : Takes conf inet session turn after) :
    requestMessage inet after.client =
      requestMessage inet session.client := by
  cases takes with
  | reads receiving arrived received =>
      simp only [requestMessage, received.type, received.addr,
        received.port]
  | _ => rfl

/-- The request which a client for this target sends. -/
def targetRequest
    (inet : Inet) (type : SocksType) (addr : Text) (port : UInt16) :
    List UInt8 :=
  (requestMessage inet
    { events := 0#32
      addr := addr
      port := port
      type := type
      phase := .sendRequest
      hsbuff := []
      relay := none }).getD []

/-- A handshake which cannot fail and which ends. -/
structure Completes
    (conf : Nspconf) (inet : Inet) (stream rest : List UInt8)
    (opening : Opening) (request : List UInt8)
    (session : SocksSession) : Prop where
  unfailed : session.client.phase ≠ .failed
  /-- The client forwards when it has read the handshake, and not before. -/
  through : session.client.phase = .forwarding ↔ session.unread = rest
  /-- Every turn for which the socket is ready transfers something. -/
  progress :
    ∀ turn after, session.client.phase ≠ .forwarding →
      turn.Rereads → Ready session turn →
      socksStep conf inet session turn = .ok after →
      transfers after.journal = transfers session.journal + 1
  /-- There are no more transfers than bytes to exchange. -/
  bounded :
    exchange conf opening request ≤ transfers session.journal →
      session.client.phase = .forwarding
  /-- The client forwards as soon as the whole reply has arrived. -/
  arrived :
    ∀ turn after more, session.client.phase = .recvReply →
      turn.Rereads → Polite stream session turn →
      turn.arrival = .shows more →
      opening.bytes.length ≤
        stream.length - session.unread.length + (more + 1) →
      socksStep conf inet session turn = .ok after →
      after.client.phase = .forwarding

section Sessions

variable {conf : Nspconf} {inet : Inet} {type : SocksType} {addr : Text}
  {port : UInt16} {stream rest : List UInt8} {opening : Opening}
  {session : SocksSession}

theorem remaining_pos
    (conf : Nspconf) (awaits : Awaits inet opening rest session)
    (shaking : session.client.phase ≠ .forwarding)
    (request : List UInt8) :
    0 < remaining conf opening request session := by
  have reply := length_encode_pos opening.reply
  cases phase : session.client.phase with
  | failed =>
      simp only [Awaits, phase] at awaits
  | forwarding =>
      exact absurd phase shaking
  | recvReply =>
      simp only [Awaits, phase] at awaits
      have longer := length_lt_encode awaits.1 awaits.2
      simp only [remaining, phase]
      omega
  | sendMethod | recvMethod | sendAuth | recvAuth | sendRequest =>
      simp only [remaining, phase]
      omega

/-- Before the client forwards, something of the handshake is unread. -/
theorem Awaits.forwarding
    (awaits : Awaits inet opening rest session)
    (unread : session.unread = rest) :
    session.client.phase = .forwarding := by
  have reply := length_encode_pos opening.reply
  cases phase : session.client.phase with
  | failed =>
      simp only [Awaits, phase] at awaits
  | forwarding =>
      rfl
  | sendMethod =>
      simp only [Awaits, phase, unread] at awaits
      have lengths := congrArg List.length awaits
      simp only [Opening.bytes, List.length_append] at lengths
      omega
  | recvMethod =>
      simp only [Awaits, phase, unread] at awaits
      have lengths := congrArg List.length awaits.1
      simp only [Opening.bytes, List.length_append] at lengths
      have greeted : 2 ≤ (greeting opening.auth).length := by
        cases opening.auth <;> decide
      omega
  | sendAuth =>
      simp only [Awaits, phase, unread] at awaits
      have lengths := congrArg List.length awaits.2
      simp only [List.length_append] at lengths
      omega
  | recvAuth =>
      simp only [Awaits, phase, unread] at awaits
      have lengths := congrArg List.length awaits.2.1
      simp only [List.length_append, List.length_cons] at lengths
      omega
  | sendRequest =>
      simp only [Awaits, phase, unread] at awaits
      have lengths := congrArg List.length awaits
      simp only [List.length_append] at lengths
      omega
  | recvReply =>
      simp only [Awaits, phase, unread] at awaits
      have lengths := congrArg List.length awaits.1
      have longer := length_lt_encode awaits.1 awaits.2
      simp only [List.length_append] at lengths
      omega

/-- The invariant of the sessions with a polite server. -/
structure Proceeds
    (conf : Nspconf) (inet : Inet) (stream : List UInt8)
    (opening : Opening) (request : List UInt8)
    (session : SocksSession) : Prop where
  aligned : Aligned inet stream session
  unfailed : session.client.phase ≠ .failed
  requested : requestMessage inet session.client = some request
  paid :
    transfers session.journal + remaining conf opening request session ≤
      exchange conf opening request

theorem proceeds_begins
    (begins : Begins type addr port stream session) :
    Proceeds conf inet stream opening (targetRequest inet type addr port)
      session := by
  rcases begins.client with ⟨_, events, same⟩
  constructor
  · exact aligned_begins begins
  · rw [same]
    exact SocksPhase.noConfusion
  · rcases handshakeMessage_some conf inet
        { session.client with phase := .sendRequest } with
      ⟨request, assembled⟩
    have made : requestMessage inet session.client = some request :=
      assembled
    rw [made]
    rw [same] at made
    have named : targetRequest inet type addr port = request := by
      have alike : targetRequest inet type addr port =
          (some request).getD [] := by
        rw [← made]
        rfl
      exact alike
    rw [named]
  · rw [begins.2.2]
    simp only [remaining, exchange, same, offered, if_true]
    exact Nat.le_of_eq (Nat.zero_add _)

theorem proceeds_of_reachable
    (form : stream = opening.bytes ++ rest)
    (reachable :
      (politeSystem conf inet type addr port stream).Reachable session) :
    Proceeds conf inet stream opening (targetRequest inet type addr port)
      session := by
  apply reachable.invariant
  · rintro source ⟨begins, _⟩
    exact proceeds_begins begins
  · rintro source turn target holds ⟨rereads, polite⟩ handled
    have takes := takes_of_handled rereads handled
    have aligned := aligned_takes takes holds.aligned
    have unfailed :=
      unfailed_takes form holds.aligned holds.unfailed polite takes
    have awaits := awaits_of_aligned form holds.aligned holds.unfailed
    have awaitsAfter := awaits_of_aligned form aligned unfailed
    refine ⟨aligned, unfailed, ?_, ?_⟩
    · rw [requestMessage_takes takes]
      exact holds.requested
    · exact Nat.le_trans
        (transfers_takes holds.requested awaits awaitsAfter takes)
        holds.paid

theorem Proceeds.completes
    (form : stream = opening.bytes ++ rest) {request : List UInt8}
    (holds : Proceeds conf inet stream opening request session) :
    Completes conf inet stream rest opening request session := by
  have awaits := awaits_of_aligned form holds.aligned holds.unfailed
  constructor
  · exact holds.unfailed
  · constructor
    · intro phase
      simpa only [Awaits, phase] using awaits
    · exact awaits.forwarding
  · intro turn after shaking rereads ready handled
    exact transfers_ready awaits shaking ready
      (takes_of_handled rereads handled)
  · intro enough
    by_contra shaking
    have left := remaining_pos conf awaits shaking request
    have paid := holds.paid
    omega
  · intro turn after more phase rereads polite arrival enough handled
    exact forwards_of_arrived form holds.aligned polite phase arrival
      enough (takes_of_handled rereads handled)

end Sessions

/--
The client forwards only after a handshake which it has read to its last byte
and not beyond; and it does so in every session in which the server grants the
request and answers no question before it is asked.
-/
theorem socks_handshake_exact
    (conf : Nspconf) (inet : Inet) (type : SocksType) (addr : Text)
    (port : UInt16) (stream : List UInt8) :
    (∀ session,
      (sessionSystem conf inet
        (Begins type addr port stream)).Reachable session →
      session.client.phase = .forwarding →
      ∃ opening, Opens inet stream session opening) ∧
    ∀ (opening : Opening) (rest : List UInt8),
      stream = opening.bytes ++ rest →
      ∀ session,
        (politeSystem conf inet type addr port stream).Reachable
          session →
        Completes conf inet stream rest opening
          (targetRequest inet type addr port) session := by
  constructor
  · intro session reachable phase
    have aligned := aligned_of_reachable reachable
    simpa only [Aligned, phase] using aligned
  · intro opening rest form session reachable
    exact (proceeds_of_reachable form reachable).completes form

/-- No limit is broken by what arrives. -/
def withinLimit (stream : List UInt8) (session : SocksSession)
    (turn : SocketTurn) : Bool :=
  match turn.arrival, answered session.client.phase with
  | .shows more, some limit =>
      decide (stream.length - session.unread.length + (more + 1) ≤ limit)
  | _, _ => true

theorem withinLimit_iff
    (stream : List UInt8) (session : SocksSession) (turn : SocketTurn) :
    withinLimit stream session turn = true ↔
      ∀ more limit, turn.arrival = .shows more →
        answered session.client.phase = some limit →
        stream.length - session.unread.length + (more + 1) ≤ limit := by
  unfold withinLimit
  split
  · next more limit arrival phase =>
      rw [decide_eq_true_eq]
      constructor
      · intro within other bound shows answers
        rw [arrival] at shows
        rw [phase] at answers
        cases shows
        cases answers
        exact within
      · intro within
        exact within more limit arrival phase
  · next open_ =>
      refine iff_of_true rfl ?_
      intro more limit arrival answers
      exact absurd answers (open_ more limit arrival)

instance (stream : List UInt8) (session : SocksSession)
    (turn : SocketTurn) : Decidable (Polite stream session turn) :=
  decidable_of_iff
    (turn.Sound ∧ withinLimit stream session turn = true)
    (and_congr_right fun _ => withinLimit_iff stream session turn)

instance (conf : Nspconf) (inet : Inet) (type : SocksType) (addr : Text)
    (port : UInt16) (stream : List UInt8) (session : SocksSession)
    (turn : SocketTurn) :
    Decidable
      ((politeSystem conf inet type addr port stream).enabled session
        turn) :=
  inferInstanceAs
    (Decidable (turn.Rereads ∧ Polite stream session turn))

/-- The server asks for credentials, and its relay is `10.0.0.1:1024`. -/
def sampleOpening : Opening where
  auth := true
  reply := ⟨5, 0, 0, .v4 sampleV4, 1024⟩
  version := rfl
  granted := rfl

/-- The handshake arrives byte by byte, with a byte of data behind it. -/
theorem socks_handshake_exact_bytewise :
    ∃ session,
      (politeSystem (sampleConf (ascii "u") (ascii "p")) sampleInet
        .udpAssociate (ascii "example.org") 80
        (sampleOpening.bytes ++ [7])).Reachable session ∧
      session.unread = [7] ∧
      session.client.relay = some ⟨ascii "10.0.0.1", 1024⟩ ∧
      (∃ opening,
        Opens sampleInet (sampleOpening.bytes ++ [7]) session opening) ∧
      Completes (sampleConf (ascii "u") (ascii "p")) sampleInet
        (sampleOpening.bytes ++ [7]) [7] sampleOpening
        (targetRequest sampleInet .udpAssociate (ascii "example.org") 80)
        session := by
  have passes :
      ((politeSystem (sampleConf (ascii "u") (ascii "p")) sampleInet
          .udpAssociate (ascii "example.org") 80
          (sampleOpening.bytes ++ [7])).replay
        (sampleSession .udpAssociate (sampleOpening.bytes ++ [7]))
        ([sampleTurn 9, sampleTurn 0, sampleTurn 0, sampleTurn 9,
            sampleTurn 0, sampleTurn 0, sampleTurn 99] ++
          List.replicate 10 (sampleTurn 0))).map
        (fun session =>
          decide
            (session.client.phase = .forwarding ∧ session.unread = [7] ∧
              session.client.relay = some ⟨ascii "10.0.0.1", 1024⟩)) =
        some true := by
    decide +kernel
  have first :
      (politeSystem (sampleConf (ascii "u") (ascii "p")) sampleInet
        .udpAssociate (ascii "example.org") 80
        (sampleOpening.bytes ++ [7])).initial
        (sampleSession .udpAssociate (sampleOpening.bytes ++ [7])) :=
    ⟨begins_sampleSession _ _, trivial⟩
  rcases System.Reachable.exists_replay (.start first) passes with
    ⟨session, reachable, facts⟩
  rcases of_decide_eq_true facts with ⟨phase, unread, relay⟩
  have exact_ :=
    socks_handshake_exact (sampleConf (ascii "u") (ascii "p")) sampleInet
      .udpAssociate (ascii "example.org") 80 (sampleOpening.bytes ++ [7])
  exact
    ⟨session, reachable, unread, relay,
      exact_.1 session reachable.of_restrict phase,
      exact_.2 sampleOpening [7] rfl session reachable⟩

end Nsproxy.Handshake.SocksExact
