import Mathlib.Tactic.Common
import Nsproxy.Lib.Transition
import Nsproxy.Handshake.Socket
import Nsproxy.Handshake.SocksReply

/-!
# Sessions of the SOCKS5 client

The client of `socks.c` on its socket.  `Takes` lists what one event of the
socket comes to.  In a receiving phase the outcome is a verdict on all bytes
of the phase which the client has seen; a verdict on the bytes seen is all
that the later modules know of `socks_handshake_input`.
-/

namespace Nsproxy.Handshake.SocksSteps

open Nsproxy.Conf
open Nsproxy.Lib.Framing
open Nsproxy.Lib.Transition
open Nsproxy.Lwip.Opts
open Nsproxy.Skutils
open Nsproxy.Socks
open Nsproxy.Handshake.Socket
open Nsproxy.Handshake.SocksReply

/-! ## The system -/

abbrev SocksSession : Type := Session ProxySocks SocksPhase

/-- The length which the first `recv` of a phase asks for. -/
def requested (client : ProxySocks) : Nat :=
  match client.phase with
  | .recvMethod | .recvAuth => socksHsBuff - client.hsbuff.length
  | .recvReply => socksHsBuff - client.hsbuff.length - 1
  | _ => 0

/-- The bytes which the first `recv` of an event hands over or shows. -/
def looked (turn : SocketTurn) (session : SocksSession) : List UInt8 :=
  (turn.arrival.shown session.unread).take (requested session.client)

/-- How many bytes an event takes from the socket. -/
def consumed (inet : Inet) (turn : SocketTurn) (session : SocksSession) :
    Nat :=
  match session.client.phase with
  | .recvReply => replyLength inet session.client (looked turn session)
  | _ => (looked turn session).length

/-- The entries of an event. -/
def entries
    (conf : Nspconf) (inet : Inet) (turn : SocketTurn)
    (session : SocksSession) : List (Entry SocksPhase) :=
  match session.client.phase with
  | .sendMethod | .sendAuth | .sendRequest =>
      sendEntries session.client.phase
        ((handshakeMessage conf inet session.client).getD [])
        session.client.hsbuff turn.send
  | phase =>
      readEntries phase (session.unread.take (consumed inet turn session))

/-- An event of the socket. -/
def socksStep
    (conf : Nspconf) (inet : Inet) (session : SocksSession)
    (turn : SocketTurn) : Except Fault SocksSession :=
  match socksEpcbEvents conf inet (turn.answers session.unread)
      turn.events session.client with
  | .error fault => .error fault
  | .ok (client, _) =>
      .ok
        { client := client
          unread := session.unread.drop (consumed inet turn session)
          journal := session.journal ++ entries conf inet turn session }

/-- The sessions which begin in one of these states. -/
def sessionSystem
    (conf : Nspconf) (inet : Inet) (starts : SocksSession → Prop) :
    System Fault SocksSession SocketTurn where
  initial := starts
  enabled _ turn := turn.Rereads
  step := socksStep conf inet

instance (conf : Nspconf) (inet : Inet) (starts : SocksSession → Prop)
    (session : SocksSession) (turn : SocketTurn) :
    Decidable ((sessionSystem conf inet starts).enabled session turn) :=
  inferInstanceAs (Decidable turn.Rereads)

/-- The client was just made, and the server will send this stream. -/
def Begins
    (type : SocksType) (addr : Text) (port : UInt16)
    (stream : List UInt8) (session : SocksSession) : Prop :=
  (∃ accepted,
      socksCreate type addr port true accepted = some session.client) ∧
    session.unread = stream ∧ session.journal = []

theorem Begins.client
    {type : SocksType} {addr : Text} {port : UInt16}
    {stream : List UInt8} {session : SocksSession}
    (begins : Begins type addr port stream session) :
    addr.length ≤ servnameMaxlen ∧
      ∃ events,
        session.client =
          { events := events
            addr := addr
            port := port
            type := type
            phase := .sendMethod
            hsbuff := []
            relay := none } := by
  rcases begins with ⟨⟨accepted, made⟩, _, _⟩
  simp only [socksCreate] at made
  split at made
  · cases made
  · next short =>
      rw [if_pos trivial] at made
      exact ⟨Nat.le_of_not_lt short, _, (Option.some.inj made).symm⟩

/-! ## What an event comes to -/

def isSending : SocksPhase → Bool
  | .sendMethod | .sendAuth | .sendRequest => true
  | _ => false

def isReceiving : SocksPhase → Bool
  | .recvMethod | .recvAuth | .recvReply => true
  | _ => false

theorem isSending_iff (phase : SocksPhase) :
    isSending phase = true ↔
      phase = .sendMethod ∨ phase = .sendAuth ∨ phase = .sendRequest := by
  cases phase <;> decide

theorem isReceiving_iff (phase : SocksPhase) :
    isReceiving phase = true ↔
      phase = .recvMethod ∨ phase = .recvAuth ∨ phase = .recvReply := by
  cases phase <;> decide

theorem methodMessage_ne_nil (conf : Nspconf) : methodMessage conf ≠ [] := by
  unfold methodMessage
  split
  · exact List.cons_ne_nil _ _
  · exact List.cons_ne_nil _ _

theorem authMessage_ne_nil (conf : Nspconf) : authMessage conf ≠ [] :=
  List.cons_ne_nil _ _

theorem requestMessage_ne_nil
    {inet : Inet} {client : ProxySocks} {request : List UInt8}
    (assembled : requestMessage inet client = some request) :
    request ≠ [] := by
  simp only [requestMessage] at assembled
  split at assembled
  · cases assembled
  · cases assembled
    exact List.cons_ne_nil _ _

/-- The message of a phase is never empty. -/
theorem handshakeMessage_ne_nil
    {conf : Nspconf} {inet : Inet} {client : ProxySocks}
    {message : List UInt8} (sending : isSending client.phase = true)
    (assembled : handshakeMessage conf inet client = some message) :
    message ≠ [] := by
  cases phase : client.phase with
  | sendMethod =>
      simp only [handshakeMessage, phase, Option.some.injEq] at assembled
      rw [← assembled]
      exact methodMessage_ne_nil conf
  | sendAuth =>
      simp only [handshakeMessage, phase, Option.some.injEq] at assembled
      rw [← assembled]
      exact authMessage_ne_nil conf
  | sendRequest =>
      simp only [handshakeMessage, phase] at assembled
      exact requestMessage_ne_nil assembled
  | _ =>
      rw [phase] at sending
      cases sending

/-- The phase into which the bytes of a method selection lead. -/
def methodVerdict : List UInt8 → SocksPhase
  | [] | [_] => .recvMethod
  | [ver, method] =>
      if ver ≠ 5 then .failed
      else if method = 2 then .sendAuth
      else if method = 0 then .sendRequest
      else .failed
  | _ => .failed

/-- The phase into which the bytes of an authentication result lead. -/
def authVerdict : List UInt8 → SocksPhase
  | [] | [_] => .recvAuth
  | [ver, status] =>
      if ver ≠ 1 ∨ status ≠ 0 then .failed else .sendRequest
  | _ => .failed

/-- The phase into which the bytes of a reply lead. -/
def replyVerdict (inet : Inet) (seen : List UInt8) : SocksPhase :=
  match parseReply inet seen with
  | none => .recvReply
  | some (hdr, _, _) =>
      if hdr.ver ≠ 5 ∨ hdr.cmd ≠ 0 then .failed else .forwarding

/-- The phase into which the bytes seen in a receiving phase lead. -/
def verdict (inet : Inet) (phase : SocksPhase) (seen : List UInt8) :
    SocksPhase :=
  match phase with
  | .recvMethod => methodVerdict seen
  | .recvAuth => authVerdict seen
  | .recvReply => replyVerdict inet seen
  | phase => phase

theorem methodVerdict_cases (seen : List UInt8) :
    (seen.length < 2 ∧ methodVerdict seen = .recvMethod) ∨
      (seen = [5, 2] ∧ methodVerdict seen = .sendAuth) ∨
      (seen = [5, 0] ∧ methodVerdict seen = .sendRequest) ∨
      (¬ seen <+: [5, 2] ∧ ¬ seen <+: [5, 0] ∧
        methodVerdict seen = .failed) := by
  match seen with
  | [] => exact .inl ⟨by decide, rfl⟩
  | [_] => exact .inl ⟨by simp, rfl⟩
  | [ver, method] =>
      by_cases version : ver = 5
      · by_cases auth : method = 2
        · simp [methodVerdict, version, auth]
        · by_cases plain : method = 0
          · simp [methodVerdict, version, plain]
          · simp [methodVerdict, auth, plain]
      · simp [methodVerdict, version]
  | _ :: _ :: _ :: _ => simp [methodVerdict]

theorem authVerdict_cases (seen : List UInt8) :
    (seen.length < 2 ∧ authVerdict seen = .recvAuth) ∨
      (seen = [1, 0] ∧ authVerdict seen = .sendRequest) ∨
      (¬ seen <+: [1, 0] ∧ authVerdict seen = .failed) := by
  match seen with
  | [] => exact .inl ⟨by decide, rfl⟩
  | [_] => exact .inl ⟨by simp, rfl⟩
  | [ver, status] =>
      by_cases good : ver = 1 ∧ status = 0
      · rcases good with ⟨rfl, rfl⟩
        simp [authVerdict]
      · have bad : ver ≠ 1 ∨ status ≠ 0 := by
          rwa [← not_and_or]
        simp [authVerdict, bad]
        simpa using good
  | _ :: _ :: _ :: _ => simp [authVerdict]

/-- What the relay becomes when these bytes were seen. -/
def relayVerdict (inet : Inet) (client : ProxySocks) (seen : List UInt8) :
    Option RelAddr :=
  match parseReply inet seen with
  | some (_, addr, _) =>
      if client.type = .udpAssociate then
        some { addr with addr := cstr addr.addr }
      else
        client.relay
  | none => client.relay

/-- The client after it has seen these bytes of a receiving phase. -/
structure Received
    (inet : Inet) (client next : ProxySocks) (seen : List UInt8) :
    Prop where
  type : next.type = client.type
  addr : next.addr = client.addr
  port : next.port = client.port
  phase : next.phase = verdict inet client.phase seen
  waiting : next.phase = client.phase → next.hsbuff = seen
  cleared :
    next.phase ≠ client.phase → next.phase ≠ .failed → next.hsbuff = []
  relay :
    next.phase = .forwarding →
      next.relay = relayVerdict inet client seen

section Verdicts

variable {inet : Inet} {client : ProxySocks} {seen : List UInt8}

theorem received_failed
    {next : ProxySocks} (receiving : client.phase ≠ .failed)
    (type : next.type = client.type) (addr : next.addr = client.addr)
    (port : next.port = client.port)
    (verdict : verdict inet client.phase seen = .failed) :
    Received inet client (failHandshake next).1 seen where
  type := type
  addr := addr
  port := port
  phase := verdict.symm
  waiting := fun same => absurd same.symm receiving
  cleared := fun _ failed => absurd rfl failed
  relay := by
    intro impossible
    cases impossible

theorem received_waits
    (receiving : client.phase ≠ .forwarding)
    (verdict : verdict inet client.phase seen = client.phase) :
    Received inet client { client with hsbuff := seen } seen where
  type := rfl
  addr := rfl
  port := rfl
  phase := verdict.symm
  waiting := fun _ => rfl
  cleared := fun moved => absurd rfl moved
  relay := fun forwards => absurd forwards receiving

theorem received_finishes
    {next : ProxySocks} {accepted : Bool}
    (type : next.type = client.type) (addr : next.addr = client.addr)
    (port : next.port = client.port)
    (verdict : verdict inet client.phase seen = next.phase)
    (moved : next.phase ≠ client.phase)
    (relay :
      next.phase = .forwarding →
        next.relay = relayVerdict inet client seen) :
    Received inet client (finishInput accepted next).1 seen := by
  have kept : (finishInput accepted next).1.phase = next.phase := by
    unfold finishInput
    split
    · rfl
    · rfl
    · rfl
  constructor
  · rw [← type]
    unfold finishInput
    split <;> rfl
  · rw [← addr]
    unfold finishInput
    split <;> rfl
  · rw [← port]
    unfold finishInput
    split <;> rfl
  · rw [kept, verdict]
  · intro same
    exact absurd (kept.symm.trans same) moved
  · intro _ _
    unfold finishInput
    split <;> rfl
  · intro forwards
    rw [kept] at forwards
    rw [← relay forwards]
    unfold finishInput
    split <;> rfl

end Verdicts

theorem received_recvMethod
    (inet : Inet) {client : ProxySocks} (phase : client.phase = .recvMethod)
    {bytes : List UInt8} (accepted : Bool)
    (some_byte : bytes.take (requested client) ≠ []) :
    Received inet client (recvMethod (.data bytes) accepted client).1
      (client.hsbuff ++ bytes.take (requested client)) := by
  have size : requested client = socksHsBuff - client.hsbuff.length := by
    simp [requested, phase]
  have receiving : client.phase ≠ .failed := by
    rw [phase]
    exact SocksPhase.noConfusion
  have unfinished : client.phase ≠ .forwarding := by
    rw [phase]
    exact SocksPhase.noConfusion
  rw [size] at some_byte ⊢
  simp only [recvMethod]
  generalize bytes.take (socksHsBuff - client.hsbuff.length) = shown
    at some_byte ⊢
  cases shown with
  | nil =>
      exact absurd rfl some_byte
  | cons byte more =>
      simp only []
      generalize client.hsbuff ++ byte :: more = seen
      rcases seen with _ | ⟨ver, _ | ⟨method, rest⟩⟩
      · exact received_waits unfinished (by rw [phase]; rfl)
      · exact received_waits unfinished (by rw [phase]; rfl)
      · have fails :
            methodVerdict (ver :: method :: rest) = .failed →
            Received inet client
              (failHandshake
                { client with hsbuff := ver :: method :: rest }).1
              (ver :: method :: rest) := by
          intro verdict
          exact received_failed receiving rfl rfl rfl
            (by rw [phase]; exact verdict)
        simp only []
        split
        · next bad =>
            apply fails
            cases rest with
            | nil => simp [methodVerdict, bad]
            | cons _ _ => rfl
        · next version =>
            have version : ver = 5 := not_not.mp version
            split
            · next refused =>
                apply fails
                cases rest with
                | nil => simp [methodVerdict, version, refused]
                | cons _ _ => rfl
            · split
              · next long =>
                  apply fails
                  cases rest with
                  | nil => exact absurd rfl long
                  | cons _ _ => rfl
              · next short =>
                  cases not_not.mp short
                  have moved :
                      ∀ next : SocksPhase, next ≠ .recvMethod →
                        next ≠ client.phase := by
                    intro next other
                    rw [phase]
                    exact other
                  split
                  · next auth =>
                      refine received_finishes rfl rfl rfl ?_
                        (moved .sendAuth SocksPhase.noConfusion)
                        SocksPhase.noConfusion
                      simp [phase, verdict, methodVerdict, version,
                        auth]
                  · split
                    · next unlike =>
                        refine received_finishes rfl rfl rfl ?_
                          (moved .sendRequest SocksPhase.noConfusion)
                          SocksPhase.noConfusion
                        simp [phase, verdict, methodVerdict, version,
                          unlike]
                    · next notAuth notNone =>
                        apply fails
                        simp [methodVerdict, notAuth, notNone]

theorem received_recvAuth
    (inet : Inet) {client : ProxySocks} (phase : client.phase = .recvAuth)
    {bytes : List UInt8} (accepted : Bool)
    (some_byte : bytes.take (requested client) ≠ []) :
    Received inet client (recvAuth (.data bytes) accepted client).1
      (client.hsbuff ++ bytes.take (requested client)) := by
  have size : requested client = socksHsBuff - client.hsbuff.length := by
    simp [requested, phase]
  have receiving : client.phase ≠ .failed := by
    rw [phase]
    exact SocksPhase.noConfusion
  have unfinished : client.phase ≠ .forwarding := by
    rw [phase]
    exact SocksPhase.noConfusion
  rw [size] at some_byte ⊢
  simp only [recvAuth]
  generalize bytes.take (socksHsBuff - client.hsbuff.length) = shown
    at some_byte ⊢
  cases shown with
  | nil =>
      exact absurd rfl some_byte
  | cons byte more =>
      simp only []
      generalize client.hsbuff ++ byte :: more = seen
      rcases seen with _ | ⟨ver, _ | ⟨status, _ | ⟨third, rest⟩⟩⟩
      · exact received_waits unfinished (by rw [phase]; rfl)
      · exact received_waits unfinished (by rw [phase]; rfl)
      · simp only []
        split
        · next bad =>
            refine received_failed receiving rfl rfl rfl ?_
            simp [phase, verdict, authVerdict, bad]
        · next good =>
            refine received_finishes rfl rfl rfl ?_ ?_
              SocksPhase.noConfusion
            · simp [phase, verdict, authVerdict, good]
            · rw [phase]
              exact SocksPhase.noConfusion
      · exact received_failed receiving rfl rfl rfl
          (by rw [phase]; rfl)

/-- The reply is taken up to its end, and all of an incomplete one. -/
theorem replyLength_eq (inet : Inet) (client : ProxySocks)
    (peeked : List UInt8) :
    parseReply inet client.hsbuff = none →
      replyLength inet client peeked =
        (replyFinder inet).taken client.hsbuff peeked := by
  intro incomplete
  simp only [replyLength, Finder.taken]
  cases read : parseReply inet (client.hsbuff ++ peeked) with
  | none =>
      rw [parseReply_eq_none.mp read]
  | some found =>
      rcases found with ⟨hdr, relay, rest⟩
      have ends :
          (replyFinder inet).ends (client.hsbuff ++ peeked) =
            some ((client.hsbuff ++ peeked).length - rest.length) := by
        simp [replyFinder, replyEnds, read]
      have longer :=
        (replyFinder inet).length_lt_of_incomplete
          (List.prefix_append _ _) ends (parseReply_eq_none.mp incomplete)
      rw [ends]
      simp only [List.length_append] at longer ⊢
      omega

theorem replyLength_le (inet : Inet) (client : ProxySocks)
    (peeked : List UInt8) :
    replyLength inet client peeked ≤ peeked.length := by
  simp only [replyLength]
  split
  · exact Nat.le_refl _
  · exact Nat.sub_le _ _

theorem received_recvReply
    (inet : Inet) {client : ProxySocks} (phase : client.phase = .recvReply)
    {bytes unread : List UInt8} (front : bytes <+: unread)
    (accepted : Bool) (some_byte : bytes.take (requested client) ≠ []) :
    Received inet client
      (recvReply inet (.data bytes) (.data unread) accepted client).1
      (client.hsbuff ++ bytes.take (requested client)) := by
  have size :
      requested client = socksHsBuff - client.hsbuff.length - 1 := by
    simp [requested, phase]
  have receiving : client.phase ≠ .failed := by
    rw [phase]
    exact SocksPhase.noConfusion
  have unfinished : client.phase ≠ .forwarding := by
    rw [phase]
    exact SocksPhase.noConfusion
  rw [size] at some_byte ⊢
  have room :
      (client.hsbuff ++
        bytes.take (socksHsBuff - client.hsbuff.length - 1)).length <
          socksHsBuff := by
    have positive := List.length_pos_iff.mpr some_byte
    simp only [List.length_append, List.length_take] at positive ⊢
    omega
  have shownFront :
      bytes.take (socksHsBuff - client.hsbuff.length - 1) <+: unread :=
    (List.take_prefix _ _).trans front
  simp only [recvReply]
  generalize bytes.take (socksHsBuff - client.hsbuff.length - 1) = shown
    at some_byte room shownFront ⊢
  cases shown with
  | nil =>
      exact absurd rfl some_byte
  | cons byte more =>
      simp only [takeReply]
      generalize byte :: more = shown at room shownFront ⊢
      have wanted := replyLength_le inet client shown
      have enough := shownFront.length_le
      have all :
          (unread.take (replyLength inet client shown)).length =
            replyLength inet client shown := by
        rw [List.length_take]
        omega
      rw [if_neg (not_not.mpr all)]
      cases read : parseReply inet (client.hsbuff ++ shown) with
      | none =>
          have whole :
              unread.take (replyLength inet client shown) = shown := by
            have length :
                replyLength inet client shown = shown.length := by
              simp [replyLength, read]
            rw [length]
            exact (List.prefix_iff_eq_take.mp shownFront).symm
          rw [whole]
          simp only []
          rw [if_neg (Nat.ne_of_lt room)]
          refine received_waits unfinished ?_
          simp [phase, verdict, replyVerdict, read]
      | some found =>
          rcases found with ⟨hdr, addr, rest⟩
          simp only [acceptReply]
          split
          · next bad =>
              refine received_failed receiving rfl rfl rfl ?_
              simp [phase, verdict, replyVerdict, read, bad]
          · next version =>
              split
              · next refused =>
                  refine received_failed receiving rfl rfl rfl ?_
                  simp [phase, verdict, replyVerdict, read, refused]
              · next granted =>
                  refine received_finishes rfl rfl rfl ?_ ?_ ?_
                  · simp [phase, verdict, replyVerdict, read, version,
                      granted]
                  · rw [phase]
                    exact SocksPhase.noConfusion
                  · intro _
                    simp [relayVerdict, read]

/-- What an event of the socket comes to. -/
inductive Takes
    (conf : Nspconf) (inet : Inet) (session : SocksSession)
    (turn : SocketTurn) : SocksSession → Prop where
  /-- The handshake is over, and the user is told of the event. -/
  | told
      (finished : session.client.phase.toPhase ≠ .handshake) :
      Takes conf inet session turn session
  /-- The kernel accepts nothing. -/
  | stalls
      (sending : isSending session.client.phase = true)
      (assembled :
        handshakeMessage conf inet session.client = some message)
      (send : turn.send = .err .eagain) :
      Takes conf inet session turn
        { client :=
            { session.client with
              hsbuff := offered message session.client.hsbuff }
          unread := session.unread
          journal :=
            session.journal ++
              sendEntries session.client.phase message
                session.client.hsbuff turn.send }
  | breaks
      (sending : isSending session.client.phase = true)
      (assembled :
        handshakeMessage conf inet session.client = some message)
      (send : turn.send = .err errno)
      (broken : errno ≠ .eagain) :
      Takes conf inet session turn
        { client :=
            { session.client with
              hsbuff := offered message session.client.hsbuff
              phase := .failed }
          unread := session.unread
          journal :=
            session.journal ++
              sendEntries session.client.phase message
                session.client.hsbuff turn.send }
  /-- The kernel accepts a part of the message. -/
  | writes
      (sending : isSending session.client.phase = true)
      (assembled :
        handshakeMessage conf inet session.client = some message)
      (send : turn.send = .accept more)
      (left :
        (offered message session.client.hsbuff).drop (more + 1) ≠ []) :
      Takes conf inet session turn
        { client :=
            { session.client with
              hsbuff :=
                (offered message session.client.hsbuff).drop
                  (more + 1) }
          unread := session.unread
          journal :=
            session.journal ++
              sendEntries session.client.phase message
                session.client.hsbuff turn.send }
  /-- The kernel accepts all that is left. -/
  | wrote
      (sending : isSending session.client.phase = true)
      (assembled :
        handshakeMessage conf inet session.client = some message)
      (send : turn.send = .accept more)
      (left :
        (offered message session.client.hsbuff).drop (more + 1) = []) :
      Takes conf inet session turn
        { client :=
            { session.client with
              hsbuff := []
              phase := sentPhase session.client.phase
              events := events }
          unread := session.unread
          journal :=
            session.journal ++
              sendEntries session.client.phase message
                session.client.hsbuff turn.send }
  /-- Nothing has arrived. -/
  | idles
      (receiving : isReceiving session.client.phase = true)
      (arrival :
        turn.arrival = .waits ∨ turn.arrival = .fails .eagain) :
      Takes conf inet session turn session
  /-- The connection is lost, the stream has ended, or the buffer is full. -/
  | loses
      (receiving : isReceiving session.client.phase = true)
      (arrival :
        (∃ errno, errno ≠ .eagain ∧ turn.arrival = .fails errno) ∨
          ((∃ more, turn.arrival = .shows more) ∧
            looked turn session = [])) :
      Takes conf inet session turn
        { session with client := { session.client with phase := .failed } }
  /-- Bytes have arrived. -/
  | reads
      (receiving : isReceiving session.client.phase = true)
      (arrived : looked turn session ≠ [])
      (received :
        Received inet session.client next
          (session.client.hsbuff ++ looked turn session)) :
      Takes conf inet session turn
        { client := next
          unread := session.unread.drop (consumed inet turn session)
          journal :=
            session.journal ++
              readEntries session.client.phase
                (session.unread.take (consumed inet turn session)) }

theorem looked_eq_nil
    {turn : SocketTurn} {session : SocksSession}
    (blind : requested session.client = 0) :
    looked turn session = [] := by
  rw [looked, blind, List.take_zero]

theorem consumed_eq_zero
    {inet : Inet} {turn : SocketTurn} {session : SocksSession}
    (nothing : looked turn session = []) :
    consumed inet turn session = 0 := by
  simp only [consumed, nothing]
  split
  · exact Nat.eq_zero_of_le_zero (replyLength_le inet _ [])
  · rfl

theorem takes_told
    {conf : Nspconf} {inet : Inet} {session : SocksSession}
    {turn : SocketTurn}
    (finished : session.client.phase.toPhase ≠ .handshake) :
    ∃ after,
      socksStep conf inet session turn = .ok after ∧
        Takes conf inet session turn after := by
  have blind : requested session.client = 0 := by
    cases phase : session.client.phase with
    | failed => simp [requested, phase]
    | forwarding => simp [requested, phase]
    | _ =>
        rw [phase] at finished
        exact absurd rfl finished
  have nothing : consumed inet turn session = 0 :=
    consumed_eq_zero (looked_eq_nil blind)
  refine ⟨session, ?_, .told finished⟩
  cases phase : session.client.phase with
  | failed =>
      simp [socksStep, socksEpcbEvents, phase, entries, nothing,
        readEntries]
  | forwarding =>
      simp [socksStep, socksEpcbEvents, phase, entries, nothing,
        readEntries]
  | _ =>
      rw [phase] at finished
      exact absurd rfl finished

section Sending

variable {conf : Nspconf} {inet : Inet} {session : SocksSession}
  {turn : SocketTurn} {message : List UInt8}

/-- In a sending phase the event is for `socks_handshake_output`. -/
theorem socksEpcbEvents_sending
    (sending : isSending session.client.phase = true)
    (assembled : handshakeMessage conf inet session.client = some message) :
    socksEpcbEvents conf inet (turn.answers session.unread) turn.events
        session.client =
      .ok
        (sendHandshake turn.send turn.epoll
          { session.client with
            hsbuff := offered message session.client.hsbuff }) := by
  have called :
      socksEpcbEvents conf inet (turn.answers session.unread) turn.events
          session.client =
        socksHandshakeOutput conf inet turn.send turn.epoll
          session.client := by
    rcases (isSending_iff _).mp sending with phase | phase | phase
    · simp [socksEpcbEvents, phase, SocketTurn.answers]
    · simp [socksEpcbEvents, phase, SocketTurn.answers]
    · simp [socksEpcbEvents, phase, SocketTurn.answers]
  rw [called]
  by_cases first : session.client.hsbuff = []
  · simp [socksHandshakeOutput, first, assembled, offered]
  · simp [socksHandshakeOutput, first, offered]

theorem entries_sending
    (sending : isSending session.client.phase = true)
    (assembled : handshakeMessage conf inet session.client = some message) :
    entries conf inet turn session =
      sendEntries session.client.phase message session.client.hsbuff
        turn.send := by
  rcases (isSending_iff _).mp sending with phase | phase | phase
  · simp [entries, phase, assembled]
  · simp [entries, phase, assembled]
  · simp [entries, phase, assembled]

/-- Nothing is read in a sending phase. -/
theorem consumed_sending
    (sending : isSending session.client.phase = true) :
    consumed inet turn session = 0 := by
  apply consumed_eq_zero
  apply looked_eq_nil
  rcases (isSending_iff _).mp sending with phase | phase | phase
  · simp [requested, phase]
  · simp [requested, phase]
  · simp [requested, phase]

theorem takes_sending
    (sending : isSending session.client.phase = true) :
    ∃ after,
      socksStep conf inet session turn = .ok after ∧
        Takes conf inet session turn after := by
  rcases handshakeMessage_some conf inet session.client with
    ⟨message, assembled⟩
  have stepped :
      socksStep conf inet session turn =
        .ok
          { client :=
              (sendHandshake turn.send turn.epoll
                { session.client with
                  hsbuff := offered message session.client.hsbuff }).1
            unread := session.unread
            journal :=
              session.journal ++
                sendEntries session.client.phase message
                  session.client.hsbuff turn.send } := by
    simp only [socksStep, socksEpcbEvents_sending sending assembled,
      entries_sending sending assembled, consumed_sending sending,
      List.drop_zero]
  refine ⟨_, stepped, ?_⟩
  cases send : turn.send with
  | err errno =>
      simp only [sendHandshake]
      split
      · next again =>
          cases again
          rw [← send]
          exact .stalls sending assembled send
      · next broken =>
          rw [← send]
          exact .breaks sending assembled send broken
  | accept more =>
      simp only [sendHandshake]
      split
      · next left =>
          rw [← send]
          exact .writes sending assembled send left
      · next left =>
          rw [← send]
          exact .wrote sending assembled send (not_not.mp left)

end Sending

/-- The client after a `recv` which handed over or showed bytes. -/
theorem received_socksHandshakeInput
    {inet : Inet} {turn : SocketTurn} {session : SocksSession}
    (rereads : turn.Rereads)
    (receiving : isReceiving session.client.phase = true)
    (arrived : looked turn session ≠ []) :
    Received inet session.client
      (socksHandshakeInput inet (turn.arrival.answer session.unread)
        (turn.again.answer session.unread) turn.epoll session.client).1
      (session.client.hsbuff ++ looked turn session) := by
  rcases shows_of_take_shown arrived with ⟨more, shows, _⟩
  rcases rereads.answer shows session.unread with ⟨bytes, found, front⟩
  rw [looked, shows] at arrived
  rw [shows] at front
  rw [found, looked, shows]
  cases phase : session.client.phase with
  | recvMethod =>
      simp only [socksHandshakeInput, phase]
      exact received_recvMethod inet phase turn.epoll arrived
  | recvAuth =>
      simp only [socksHandshakeInput, phase]
      exact received_recvAuth inet phase turn.epoll arrived
  | recvReply =>
      simp only [socksHandshakeInput, phase]
      exact received_recvReply inet phase front turn.epoll arrived
  | _ =>
      rw [phase] at receiving
      cases receiving

/-- Without bytes the client waits or fails. -/
theorem socksHandshakeInput_nothing
    {inet : Inet} {turn : SocketTurn} {session : SocksSession}
    (receiving : isReceiving session.client.phase = true)
    (nothing : looked turn session = []) (second : RecvAnswer) :
    (socksHandshakeInput inet (turn.arrival.answer session.unread)
        second turn.epoll session.client).1 =
      if turn.arrival = .waits ∨ turn.arrival = .fails .eagain then
        session.client
      else
        { session.client with phase := .failed } := by
  rcases turn with ⟨events, send, arrival, again, epoll⟩
  cases arrival with
  | waits =>
      rcases (isReceiving_iff _).mp receiving with phase | phase | phase
      · simp [socksHandshakeInput, phase, Arrival.answer, recvMethod]
      · simp [socksHandshakeInput, phase, Arrival.answer, recvAuth]
      · simp [socksHandshakeInput, phase, Arrival.answer, recvReply]
  | fails errno =>
      by_cases retry : errno = .eagain
      · rcases (isReceiving_iff _).mp receiving with phase | phase | phase
        · simp [socksHandshakeInput, phase, Arrival.answer, recvMethod,
            retry]
        · simp [socksHandshakeInput, phase, Arrival.answer, recvAuth,
            retry]
        · simp [socksHandshakeInput, phase, Arrival.answer, recvReply,
            retry]
      · rcases (isReceiving_iff _).mp receiving with phase | phase | phase
        · simp [socksHandshakeInput, phase, Arrival.answer, recvMethod,
            retry, failHandshake]
        · simp [socksHandshakeInput, phase, Arrival.answer, recvAuth,
            retry, failHandshake]
        · simp [socksHandshakeInput, phase, Arrival.answer, recvReply,
            retry, failHandshake]
  | shows more =>
      rcases (isReceiving_iff _).mp receiving with phase | phase | phase
      · simp only [looked, requested, phase, Arrival.shown] at nothing
        simp [socksHandshakeInput, phase, Arrival.answer, recvMethod,
          nothing, failHandshake]
      · simp only [looked, requested, phase, Arrival.shown] at nothing
        simp [socksHandshakeInput, phase, Arrival.answer, recvAuth,
          nothing, failHandshake]
      · simp only [looked, requested, phase, Arrival.shown] at nothing
        simp [socksHandshakeInput, phase, Arrival.answer, recvReply,
          nothing, failHandshake]

theorem takes_receiving
    {conf : Nspconf} {inet : Inet} {session : SocksSession}
    {turn : SocketTurn} (rereads : turn.Rereads)
    (receiving : isReceiving session.client.phase = true) :
    ∃ after,
      socksStep conf inet session turn = .ok after ∧
        Takes conf inet session turn after := by
  have stepped :
      socksStep conf inet session turn =
        .ok
          { client :=
              (socksHandshakeInput inet
                (turn.arrival.answer session.unread)
                (turn.again.answer session.unread) turn.epoll
                session.client).1
            unread := session.unread.drop (consumed inet turn session)
            journal :=
              session.journal ++
                readEntries session.client.phase
                  (session.unread.take
                    (consumed inet turn session)) } := by
    rcases (isReceiving_iff _).mp receiving with phase | phase | phase
    · simp [socksStep, socksEpcbEvents, phase, SocketTurn.answers,
        entries]
    · simp [socksStep, socksEpcbEvents, phase, SocketTurn.answers,
        entries]
    · simp [socksStep, socksEpcbEvents, phase, SocketTurn.answers,
        entries]
  by_cases nothing : looked turn session = []
  · have zero : consumed inet turn session = 0 := consumed_eq_zero nothing
    simp only [socksHandshakeInput_nothing receiving nothing, zero,
      List.drop_zero, List.take_zero, readEntries, if_pos,
      List.append_nil] at stepped
    refine ⟨_, stepped, ?_⟩
    split
    · next idle =>
        exact .idles receiving idle
    · next lost =>
        refine .loses receiving ?_
        rcases turn with ⟨events, send, arrival, again, epoll⟩
        cases arrival with
        | waits =>
            exact absurd (.inl rfl) lost
        | fails errno =>
            refine .inl ⟨errno, ?_, rfl⟩
            rintro rfl
            exact lost (.inr rfl)
        | shows more =>
            exact .inr ⟨⟨more, rfl⟩, nothing⟩
  · exact
      ⟨_, stepped,
        .reads receiving nothing
          (received_socksHandshakeInput rereads receiving nothing)⟩

/-- Every event of the socket is handled, and no assertion fails. -/
theorem takes_socksStep
    (conf : Nspconf) (inet : Inet) (session : SocksSession)
    {turn : SocketTurn} (rereads : turn.Rereads) :
    ∃ after,
      socksStep conf inet session turn = .ok after ∧
        Takes conf inet session turn after := by
  cases phase : session.client.phase with
  | failed =>
      apply takes_told
      rw [phase]
      exact Phase.noConfusion
  | forwarding =>
      apply takes_told
      rw [phase]
      exact Phase.noConfusion
  | sendMethod | sendAuth | sendRequest =>
      apply takes_sending
      rw [phase]
      rfl
  | recvMethod | recvAuth | recvReply =>
      apply takes_receiving rereads
      rw [phase]
      rfl

theorem takes_of_handled
    {conf : Nspconf} {inet : Inet} {session after : SocksSession}
    {turn : SocketTurn} (rereads : turn.Rereads)
    (handled : socksStep conf inet session turn = .ok after) :
    Takes conf inet session turn after := by
  rcases takes_socksStep conf inet session rereads with
    ⟨found, stepped, takes⟩
  rw [stepped] at handled
  cases handled
  exact takes

/-! ## A server for examples -/

/-- A configuration with these credentials. -/
def sampleConf (user pass : Text) : Nspconf where
  proxysrv := ascii "127.0.0.1"
  proxyport := 1080
  proxytype := .socks5
  dnssrv := ascii "1.1.1.1"
  dnsport := 53
  dnstype := .off
  proxyuser := user
  proxypass := pass
  ipv6 := false
  directCidrs := []
  directCidrCapacity := 0
  directCidrMode := .whitelist

/-- The texts of the addresses of the examples. -/
def sampleInet : Inet where
  pton4 _ := none
  pton6 _ := none
  ntop4 addr :=
    if addr = sampleV4 then ascii "10.0.0.1" else ascii "0.0.0.0"
  ntop6 _ := ascii "::"
  ntoa _ := ascii "10.0.0.1"

/-- A client of this type for `example.org:80`. -/
def sampleClient (type : SocksType) : ProxySocks where
  events := epollout
  addr := ascii "example.org"
  port := 80
  type := type
  phase := .sendMethod
  hsbuff := []
  relay := none

/-- The beginning of a session in which the server sends this stream. -/
def sampleSession (type : SocksType) (stream : List UInt8) :
    SocksSession where
  client := sampleClient type
  unread := stream
  journal := []

theorem begins_sampleSession (type : SocksType) (stream : List UInt8) :
    Begins type (ascii "example.org") 80 stream
      (sampleSession type stream) := by
  refine ⟨⟨true, ?_⟩, rfl, rfl⟩
  rfl

/-- The socket accepts and shows so many bytes and one more. -/
def sampleTurn (more : Nat) : SocketTurn where
  events := epollin ||| epollout
  send := .accept more
  arrival := .shows more
  again := .shows more
  epoll := true

theorem rereads_sampleTurn (more : Nat) : (sampleTurn more).Rereads :=
  SocketTurn.rereads_of_same rfl

end Nsproxy.Handshake.SocksSteps
