import Mathlib.Data.Nat.Digits.Defs
import Mathlib.Tactic.Common
import Nsproxy.Lib.Transition
import Nsproxy.Handshake.HttpSteps
import Nsproxy.Handshake.SocksSteps

/-!
# The messages of a handshake

Both clients send a message from a buffer whose emptiness tells that the phase
has just begun.  `Stage` says how far a message has come, and the journal of a
session shows it: not begun, in part, or sent as a whole.

The invariant holds for every message of a session.  It is kept because the
buffer is empty whenever a phase begins, and never empty while a part of the
message is left.
-/

namespace Nsproxy.Handshake.Output

open Nsproxy.Conf
open Nsproxy.Http
open Nsproxy.Lib.Transition
open Nsproxy.Lwip.Opts
open Nsproxy.Skutils
open Nsproxy.Socks
open Nsproxy.Handshake.Socket

/-! ## Stages of a message -/

/-- How far a message has come. -/
inductive Stage where
  | ahead
  | writing
  | behind
  /-- The message was not needed, or it was sent. -/
  | passed
  | broken
deriving DecidableEq, Repr

section Journal

variable {Phase : Type} [DecidableEq Phase]

structure Untouched (phase : Phase) (journal : List (Entry Phase)) :
    Prop where
  assembled : assembledIn phase journal = []
  accepted : acceptedIn phase journal = []

/-- The message was assembled once, and these bytes are left. -/
structure Begun
    (phase : Phase) (message left : List UInt8)
    (journal : List (Entry Phase)) : Prop where
  assembled : assembledIn phase journal = [message]
  accepted : acceptedIn phase journal ++ left = message

/-- What the journal shows of a message, with the buffer of its phase. -/
def Stage.Shows
    (phase : Phase) (message buffer : List UInt8)
    (journal : List (Entry Phase)) : Stage → Prop
  | .ahead => Untouched phase journal
  | .writing =>
      (buffer = [] ∧ Untouched phase journal) ∨
        (buffer ≠ [] ∧ Begun phase message buffer journal)
  | .behind => Begun phase message [] journal
  | .passed => Untouched phase journal ∨ Begun phase message [] journal
  | .broken =>
      Untouched phase journal ∨
        ∃ left, Begun phase message left journal

theorem assembledIn_append
    (phase : Phase) (front back : List (Entry Phase)) :
    assembledIn phase (front ++ back) =
      assembledIn phase front ++ assembledIn phase back := by
  induction front with
  | nil => rfl
  | cons entry rest induction =>
      cases entry with
      | assembled other message =>
          simp only [List.cons_append, assembledIn, induction]
          split
          · rfl
          · rfl
      | accepted other bytes => exact induction
      | consumed other bytes => exact induction

theorem acceptedIn_append
    (phase : Phase) (front back : List (Entry Phase)) :
    acceptedIn phase (front ++ back) =
      acceptedIn phase front ++ acceptedIn phase back := by
  induction front with
  | nil => rfl
  | cons entry rest induction =>
      cases entry with
      | assembled other message => exact induction
      | accepted other bytes =>
          simp only [List.cons_append, acceptedIn, induction]
          split
          · rw [List.append_assoc]
          · rfl
      | consumed other bytes => exact induction

theorem untouched_sendEntries
    {phase other : Phase} (different : other ≠ phase)
    (message buffer : List UInt8) (send : SendAnswer) :
    Untouched phase (sendEntries other message buffer send) := by
  cases send with
  | accept more =>
      by_cases empty : buffer = []
      · constructor
        · simp [sendEntries, empty, assembledIn, different]
        · simp [sendEntries, empty, acceptedIn, different]
      · constructor
        · simp [sendEntries, empty, assembledIn]
        · simp [sendEntries, empty, acceptedIn, different]
  | err errno =>
      by_cases empty : buffer = []
      · constructor
        · simp [sendEntries, empty, assembledIn, different]
        · simp [sendEntries, empty, acceptedIn]
      · constructor
        · simp [sendEntries, empty, assembledIn]
        · simp [sendEntries, empty, acceptedIn]

theorem untouched_readEntries
    (phase other : Phase) (bytes : List UInt8) :
    Untouched phase (readEntries other bytes) := by
  unfold readEntries
  split
  · exact ⟨rfl, rfl⟩
  · exact ⟨rfl, rfl⟩

variable {phase : Phase} {message buffer left : List UInt8}
  {journal entries : List (Entry Phase)}

theorem Untouched.append
    (before : Untouched phase journal) (silent : Untouched phase entries) :
    Untouched phase (journal ++ entries) := by
  constructor
  · rw [assembledIn_append, before.assembled, silent.assembled]
    rfl
  · rw [acceptedIn_append, before.accepted, silent.accepted]
    rfl

theorem Begun.append
    (before : Begun phase message left journal)
    (silent : Untouched phase entries) :
    Begun phase message left (journal ++ entries) := by
  constructor
  · rw [assembledIn_append, before.assembled, silent.assembled]
    rfl
  · rw [acceptedIn_append, silent.accepted, List.append_nil]
    exact before.accepted

/-- Entries about other messages change nothing. -/
theorem Stage.Shows.append
    {stage : Stage} (shows : stage.Shows phase message buffer journal)
    (silent : Untouched phase entries) :
    stage.Shows phase message buffer (journal ++ entries) := by
  cases stage with
  | ahead =>
      exact Untouched.append shows silent
  | writing =>
      rcases shows with ⟨empty, before⟩ | ⟨some_byte, before⟩
      · exact .inl ⟨empty, before.append silent⟩
      · exact .inr ⟨some_byte, before.append silent⟩
  | behind =>
      exact Begun.append shows silent
  | passed =>
      rcases shows with before | before
      · exact .inl (before.append silent)
      · exact .inr (before.append silent)
  | broken =>
      rcases shows with before | ⟨left, before⟩
      · exact .inl (before.append silent)
      · exact .inr ⟨left, before.append silent⟩

/-- What a `send` leaves of the bytes it was given. -/
def unsent (bytes : List UInt8) : SendAnswer → List UInt8
  | .accept more => bytes.drop (more + 1)
  | .err _ => bytes

/-- The call assembles the message, or goes on with it. -/
theorem begun_sendEntries
    (shows : Stage.writing.Shows phase message buffer journal)
    (send : SendAnswer) :
    Begun phase message (unsent (offered message buffer) send)
      (journal ++ sendEntries phase message buffer send) := by
  rcases shows with ⟨empty, before⟩ | ⟨some_byte, before⟩
  · cases send with
    | accept more =>
        constructor
        · simp [assembledIn_append, before.assembled, sendEntries, empty,
            assembledIn]
        · simp [acceptedIn_append, before.accepted, sendEntries, empty,
            acceptedIn, unsent, offered]
    | err errno =>
        constructor
        · simp [assembledIn_append, before.assembled, sendEntries, empty,
            assembledIn]
        · simp [acceptedIn_append, before.accepted, sendEntries, empty,
            acceptedIn, unsent, offered]
  · cases send with
    | accept more =>
        constructor
        · simp [assembledIn_append, before.assembled, sendEntries,
            some_byte, assembledIn]
        · simp [acceptedIn_append, sendEntries, some_byte, acceptedIn,
            unsent, offered, before.accepted]
    | err errno =>
        constructor
        · simp [before.assembled, sendEntries, some_byte]
        · simp [sendEntries, some_byte, unsent, offered, before.accepted]

/-- A message which fails on the way was assembled once at most. -/
theorem Stage.Shows.breaks
    {stage : Stage} (shows : stage.Shows phase message buffer journal)
    (other : List UInt8) :
    Stage.broken.Shows phase message other journal := by
  cases stage with
  | ahead =>
      exact .inl shows
  | writing =>
      rcases shows with ⟨_, before⟩ | ⟨_, before⟩
      · exact .inl before
      · exact .inr ⟨_, before⟩
  | behind =>
      exact .inr ⟨_, shows⟩
  | passed =>
      rcases shows with before | before
      · exact .inl before
      · exact .inr ⟨_, before⟩
  | broken =>
      exact shows

/-- The stages into which a message comes when a phase ends. -/
inductive Stage.Leads : Stage → Stage → Prop where
  | stays (idle : stage ≠ .writing) : Leads stage stage
  | begins : Leads .ahead .writing
  | skips : Leads .ahead .passed
  | ends : Leads .behind .passed
  | breaks : Leads stage .broken

/-- The next phase begins with an empty buffer. -/
theorem Stage.Leads.shows
    {before after : Stage} (leads : before.Leads after)
    (shows : before.Shows phase message buffer journal)
    {next : List UInt8} (empty : after = .writing → next = []) :
    after.Shows phase message next journal := by
  cases leads with
  | stays idle =>
      cases before with
      | writing => exact absurd rfl idle
      | ahead => exact shows
      | behind => exact shows
      | passed => exact shows
      | broken => exact shows
  | begins =>
      exact .inl ⟨empty rfl, shows⟩
  | skips =>
      exact .inl shows
  | ends =>
      exact .inr shows
  | breaks =>
      exact shows.breaks next

end Journal

/-! ## The SOCKS5 client -/

section Socks

open Nsproxy.Handshake.SocksSteps

/-- How far the message of a phase has come when the client is in another. -/
def socksStage (phase : SocksPhase) : SocksPhase → Stage
  | .failed => .broken
  | .sendMethod => if phase = .sendMethod then .writing else .ahead
  | .recvMethod => if phase = .sendMethod then .behind else .ahead
  | .sendAuth =>
      if phase = .sendMethod then .behind
      else if phase = .sendAuth then .writing
      else .ahead
  | .recvAuth => if phase = .sendRequest then .ahead else .behind
  | .sendRequest =>
      if phase = .sendMethod then .behind
      else if phase = .sendRequest then .writing
      else .passed
  | .recvReply | .forwarding =>
      if phase = .sendAuth then .passed else .behind

theorem socksStage_self
    {phase : SocksPhase} (sending : isSending phase = true) :
    socksStage phase phase = .writing := by
  cases phase with
  | sendMethod | sendAuth | sendRequest => rfl
  | _ => cases sending

theorem socksStage_sent
    {phase : SocksPhase} (sending : isSending phase = true) :
    socksStage phase (sentPhase phase) = .behind := by
  cases phase with
  | sendMethod | sendAuth | sendRequest => rfl
  | _ => cases sending

theorem socksStage_other
    {phase present : SocksPhase} (sending : isSending phase = true)
    (other : present ≠ phase) :
    socksStage phase present ≠ .writing := by
  cases phase with
  | sendMethod | sendAuth | sendRequest =>
      cases present with
      | sendMethod | sendAuth | sendRequest =>
          first
          | exact absurd rfl other
          | decide
      | _ => decide
  | _ => cases sending

/-- When a message is sent, the others stay where they are. -/
theorem socksStage_sent_other
    {phase present : SocksPhase} (sending : isSending phase = true)
    (current : isSending present = true) (other : present ≠ phase) :
    socksStage phase (sentPhase present) = socksStage phase present := by
  cases phase with
  | sendMethod | sendAuth | sendRequest =>
      cases present with
      | sendMethod | sendAuth | sendRequest =>
          first
          | exact absurd rfl other
          | rfl
      | _ => cases current
  | _ => cases sending

/-- A verdict begins the next message, or none. -/
theorem leads_verdict
    (inet : Inet) {phase present : SocksPhase}
    (sending : isSending phase = true)
    (receiving : isReceiving present = true) (seen : List UInt8) :
    (socksStage phase present).Leads
      (socksStage phase (verdict inet present seen)) := by
  have idle : socksStage phase present ≠ .writing := by
    apply socksStage_other sending
    rintro rfl
    cases present with
    | sendMethod | sendAuth | sendRequest => cases receiving
    | _ => cases sending
  cases present with
  | recvMethod =>
      simp only [verdict]
      rcases methodVerdict_cases seen with
        ⟨_, same⟩ | ⟨_, same⟩ | ⟨_, same⟩ | ⟨_, _, same⟩
      · rw [same]
        exact .stays idle
      · rw [same]
        cases phase with
        | sendMethod => exact .stays idle
        | sendAuth => exact .begins
        | sendRequest => exact .stays idle
        | _ => cases sending
      · rw [same]
        cases phase with
        | sendMethod => exact .stays idle
        | sendAuth => exact .skips
        | sendRequest => exact .begins
        | _ => cases sending
      · rw [same]
        exact .breaks
  | recvAuth =>
      simp only [verdict]
      rcases authVerdict_cases seen with
        ⟨_, same⟩ | ⟨_, same⟩ | ⟨_, same⟩
      · rw [same]
        exact .stays idle
      · rw [same]
        cases phase with
        | sendMethod => exact .stays idle
        | sendAuth => exact .ends
        | sendRequest => exact .begins
        | _ => cases sending
      · rw [same]
        exact .breaks
  | recvReply =>
      simp only [verdict, replyVerdict]
      split
      · exact .stays idle
      · split
        · exact .breaks
        · exact .stays idle
  | _ => cases receiving

/-- Every message of the session is where its phase says. -/
def SocksWritten
    (conf : Nspconf) (inet : Inet) (session : SocksSession) : Prop :=
  ∀ phase message, isSending phase = true →
    handshakeMessage conf inet { session.client with phase := phase } =
      some message →
    (socksStage phase session.client.phase).Shows phase message
      session.client.hsbuff session.journal

section Steps

variable {conf : Nspconf} {inet : Inet}
  {session after : SocksSession} {turn : SocketTurn}

/-- A call which sends; `unsent` is what it leaves in the buffer. -/
theorem SocksWritten.sends
    (written : SocksWritten conf inet session)
    (sending : isSending session.client.phase = true)
    {message : List UInt8}
    (assembled :
      handshakeMessage conf inet session.client = some message)
    (client :
      after.client =
        { session.client with
          hsbuff :=
            unsent (offered message session.client.hsbuff) turn.send })
    (journal :
      after.journal =
        session.journal ++
          sendEntries session.client.phase message
            session.client.hsbuff turn.send)
    (left :
      unsent (offered message session.client.hsbuff) turn.send ≠ []) :
    SocksWritten conf inet after := by
  intro phase other isPhase made
  rw [client] at made
  rw [client, journal]
  by_cases same : session.client.phase = phase
  · subst same
    have alike : other = message := by
      rw [show handshakeMessage conf inet session.client = some other
        from made] at assembled
      exact Option.some.inj assembled
    subst alike
    have before := written _ _ sending assembled
    rw [socksStage_self sending] at before ⊢
    exact .inr ⟨left, begun_sendEntries before turn.send⟩
  · have before := written phase other isPhase made
    have idle := socksStage_other isPhase same
    exact (Stage.Leads.stays idle).shows
      (before.append (untouched_sendEntries same _ _ _))
      fun writing => absurd writing idle

/-- A call which sends the rest of the message. -/
theorem SocksWritten.sent
    (written : SocksWritten conf inet session)
    (sending : isSending session.client.phase = true)
    {message : List UInt8} {events : EventMask}
    (assembled :
      handshakeMessage conf inet session.client = some message)
    (client :
      after.client =
        { session.client with
          hsbuff := []
          phase := sentPhase session.client.phase
          events := events })
    (journal :
      after.journal =
        session.journal ++
          sendEntries session.client.phase message
            session.client.hsbuff turn.send)
    (left :
      unsent (offered message session.client.hsbuff) turn.send = []) :
    SocksWritten conf inet after := by
  intro phase other isPhase made
  rw [client] at made
  rw [client, journal]
  by_cases same : session.client.phase = phase
  · subst same
    have alike : other = message := by
      rw [show handshakeMessage conf inet session.client = some other
        from made] at assembled
      exact Option.some.inj assembled
    subst alike
    have before := written _ _ sending assembled
    have begun := begun_sendEntries
      (socksStage_self sending ▸ before) turn.send
    simp only [socksStage_sent sending]
    rw [left] at begun
    exact begun
  · have before := written phase other isPhase made
    have idle := socksStage_other isPhase same
    simp only [socksStage_sent_other isPhase sending same]
    exact (Stage.Leads.stays idle).shows
      (before.append (untouched_sendEntries same _ _ _))
      fun writing => absurd writing idle

theorem written_takes
    (takes : Takes conf inet session turn after)
    (written : SocksWritten conf inet session) :
    SocksWritten conf inet after := by
  cases takes with
  | told finished =>
      exact written
  | stalls sending assembled send =>
      refine written.sends sending assembled ?_ rfl ?_
      · rw [send]
        rfl
      · rw [send]
        exact offered_ne_nil (handshakeMessage_ne_nil sending assembled) _
  | breaks sending assembled send broken =>
      intro phase other isPhase made
      have before := written phase other isPhase made
      by_cases same : session.client.phase = phase
      · subst same
        rw [show handshakeMessage conf inet session.client = some other
          from made] at assembled
        cases assembled
        rw [socksStage_self sending] at before
        exact .inr ⟨_, begun_sendEntries before turn.send⟩
      · exact
          (before.append (untouched_sendEntries same _ _ _)).breaks _
  | writes sending assembled send left =>
      refine written.sends sending assembled ?_ rfl ?_
      · rw [send]
        rfl
      · rw [send]
        exact left
  | wrote sending assembled send left =>
      refine written.sent sending assembled rfl rfl ?_
      rw [send]
      exact left
  | idles receiving arrival =>
      exact written
  | loses receiving arrival =>
      intro phase other isPhase made
      exact (written phase other isPhase made).breaks _
  | @reads next receiving arrived received =>
      intro phase other isPhase made
      have alike :
          handshakeMessage conf inet
              { session.client with phase := phase } =
            some other := by
        rw [← made]
        cases phase with
        | sendMethod | sendAuth => rfl
        | sendRequest =>
            simp only [handshakeMessage, requestMessage, received.type,
              received.addr, received.port]
        | _ => cases isPhase
      have before := written phase other isPhase alike
      have leads := leads_verdict inet isPhase receiving
        (session.client.hsbuff ++ looked turn session)
      rw [← received.phase] at leads
      have kept := before.append
        (untouched_readEntries phase session.client.phase
          (session.unread.take (consumed inet turn session)))
      refine leads.shows kept ?_
      intro writing
      have entered : next.phase = phase := by
        by_contra other
        exact socksStage_other isPhase other writing
      apply received.cleared
      · rw [entered]
        rintro rfl
        cases phase : session.client.phase with
        | sendMethod | sendAuth | sendRequest =>
            rw [phase] at receiving
            cases receiving
        | _ =>
            rw [phase] at isPhase
            cases isPhase
      · rw [entered]
        rintro rfl
        cases isPhase

/-- A phase which is not `PHASE_FAILED` begins with an empty buffer. -/
theorem hsbuff_of_entered
    (takes : Takes conf inet session turn after)
    (entered : after.client.phase ≠ session.client.phase)
    (unfailed : after.client.phase ≠ .failed) :
    after.client.hsbuff = [] := by
  cases takes with
  | told finished =>
      exact absurd rfl entered
  | stalls sending assembled send =>
      exact absurd rfl entered
  | breaks sending assembled send broken =>
      exact absurd rfl unfailed
  | writes sending assembled send left =>
      exact absurd rfl entered
  | wrote sending assembled send left =>
      rfl
  | idles receiving arrival =>
      exact absurd rfl entered
  | loses receiving arrival =>
      exact absurd rfl unfailed
  | reads receiving arrived received =>
      exact received.cleared entered unfailed

end Steps

/-- The address in a request, as the protocol has it. -/
def requestAddr (inet : Inet) (addr : Text) : List UInt8 :=
  match inet.pton4 addr with
  | some in4 => 1 :: in4.toList
  | none =>
      match inet.pton6 addr with
      | some in6 => 4 :: in6.toList
      | none => 3 :: UInt8.ofNat addr.length :: addr

/-- The message of a sending phase, as the protocol has it. -/
def socksMessage
    (conf : Nspconf) (inet : Inet) (type : SocksType) (addr : Text)
    (port : UInt16) : SocksPhase → List UInt8
  | .sendMethod => if conf.proxyuser = [] then [5, 1, 0] else [5, 2, 0, 2]
  | .sendAuth =>
      [1, UInt8.ofNat conf.proxyuser.length] ++ conf.proxyuser ++
        [UInt8.ofNat conf.proxypass.length] ++ conf.proxypass
  | .sendRequest =>
      [5, if type = .tcpForward then 1 else 3, 0] ++
        requestAddr inet addr ++ portbe port
  | _ => []

/-- An address which is short enough is encoded as a whole. -/
theorem encodeAddr_eq
    (inet : Inet) {addr : Text} (short : addr.length ≤ servnameMaxlen)
    (port : UInt16) :
    encodeAddr inet addr port = requestAddr inet addr ++ portbe port := by
  have exact_ : addr.length % 256 = addr.length :=
    Nat.mod_eq_of_lt (Nat.lt_succ_of_le short)
  cases v4 : inet.pton4 addr with
  | some in4 =>
      simp [encodeAddr, requestAddr, v4]
  | none =>
      cases v6 : inet.pton6 addr with
      | some in6 =>
          simp [encodeAddr, requestAddr, v4, v6]
      | none =>
          simp [encodeAddr, requestAddr, v4, v6, exact_]

theorem handshakeMessage_eq
    (conf : Nspconf) (inet : Inet) {client : ProxySocks}
    (short : client.addr.length ≤ servnameMaxlen) {phase : SocksPhase}
    (sending : isSending phase = true) :
    handshakeMessage conf inet { client with phase := phase } =
      some
        (socksMessage conf inet client.type client.addr client.port
          phase) := by
  cases phase with
  | sendMethod =>
      by_cases anonymous : conf.proxyuser = []
      · simp [handshakeMessage, methodMessage, socksMessage, anonymous]
      · simp [handshakeMessage, methodMessage, socksMessage, anonymous]
  | sendAuth =>
      rfl
  | sendRequest =>
      rcases handshakeMessage_some conf inet
          { client with phase := .sendRequest } with ⟨request, made⟩
      rw [made]
      simp only [handshakeMessage, requestMessage, socks5AddrPut,
        List.take_of_length_le short, encodeAddr_eq inet short] at made
      split at made
      · cases made
      · next encoded fits =>
          split at fits
          · cases fits
          · cases fits
            cases made
            simp [socksMessage]
  | _ => cases sending

/-- Every message fits the buffer. -/
theorem length_socksMessage
    (conf : Nspconf) (inet : Inet) (type : SocksType) {addr : Text}
    (port : UInt16) (short : addr.length ≤ servnameMaxlen)
    (user : conf.proxyuser.length ≤ authMaxlen)
    (pass : conf.proxypass.length ≤ authMaxlen) (phase : SocksPhase) :
    (socksMessage conf inet type addr port phase).length ≤
      socksHsBuff := by
  cases phase with
  | sendMethod =>
      simp only [socksMessage]
      split <;> decide
  | sendAuth =>
      simp only [socksMessage, List.length_append, List.length_cons,
        List.length_nil, socksHsBuff, authMaxlen] at user pass ⊢
      omega
  | sendRequest =>
      have encoded := length_encodeAddr inet short port
      rw [encodeAddr_eq inet short] at encoded
      simp only [socksMessage, List.length_append, List.length_cons,
        List.length_nil, socksHsBuff, servnameMaxlen] at encoded ⊢
      omega
  | _ => exact Nat.zero_le _

/-- What a session of the SOCKS5 client sends. -/
structure SocksOutput
    (conf : Nspconf) (inet : Inet) (type : SocksType) (addr : Text)
    (port : UInt16) (session : SocksSession) : Prop where
  messages :
    ∀ phase, isSending phase = true →
      (socksStage phase session.client.phase).Shows phase
        (socksMessage conf inet type addr port phase)
        session.client.hsbuff session.journal
  fits :
    ∀ phase,
      (socksMessage conf inet type addr port phase).length ≤ socksHsBuff
  entered :
    ∀ turn after, turn.Rereads →
      socksStep conf inet session turn = .ok after →
      after.client.phase ≠ session.client.phase →
      after.client.phase ≠ .failed →
      after.client.hsbuff = []

/-- The target never changes. -/
theorem target_takes
    {conf : Nspconf} {inet : Inet} {session after : SocksSession}
    {turn : SocketTurn} (takes : Takes conf inet session turn after) :
    after.client.type = session.client.type ∧
      after.client.addr = session.client.addr ∧
      after.client.port = session.client.port := by
  cases takes with
  | reads receiving arrived received =>
      exact ⟨received.type, received.addr, received.port⟩
  | _ => exact ⟨rfl, rfl, rfl⟩

theorem written_of_reachable
    {conf : Nspconf} {inet : Inet} {type : SocksType} {addr : Text}
    {port : UInt16} {stream : List UInt8} {session : SocksSession}
    (reachable :
      (sessionSystem conf inet
        (Begins type addr port stream)).Reachable session) :
    SocksWritten conf inet session ∧
      (session.client.type = type ∧ session.client.addr = addr ∧
        session.client.port = port) ∧
      addr.length ≤ servnameMaxlen := by
  apply reachable.invariant
  · intro source begins
    rcases begins.client with ⟨short, events, same⟩
    refine ⟨?_, ?_, short⟩
    · intro phase message sending made
      rw [same, begins.2.2]
      cases phase with
      | sendMethod => exact .inl ⟨rfl, rfl, rfl⟩
      | sendAuth => exact ⟨rfl, rfl⟩
      | sendRequest => exact ⟨rfl, rfl⟩
      | _ => cases sending
    · rw [same]
      exact ⟨rfl, rfl, rfl⟩
  · rintro source turn target ⟨written, ⟨type, addr, port⟩, short⟩
      rereads handled
    have takes := takes_of_handled rereads handled
    rcases target_takes takes with ⟨sameType, sameAddr, samePort⟩
    exact
      ⟨written_takes takes written,
        ⟨sameType.trans type, sameAddr.trans addr, samePort.trans port⟩,
        short⟩

theorem socksOutput_of_reachable
    {conf : Nspconf} (user : conf.proxyuser.length ≤ authMaxlen)
    (pass : conf.proxypass.length ≤ authMaxlen) {inet : Inet}
    {type : SocksType} {addr : Text} {port : UInt16}
    {stream : List UInt8} {session : SocksSession}
    (reachable :
      (sessionSystem conf inet
        (Begins type addr port stream)).Reachable session) :
    SocksOutput conf inet type addr port session := by
  rcases written_of_reachable reachable with
    ⟨written, ⟨rfl, rfl, rfl⟩, short⟩
  constructor
  · intro phase sending
    exact written phase _ sending
      (handshakeMessage_eq conf inet short sending)
  · exact length_socksMessage conf inet _ _ short user pass
  · intro turn after rereads handled
    exact hsbuff_of_entered (takes_of_handled rereads handled)

end Socks

/-! ## The HTTP client -/

section Http

open Nsproxy.Handshake.HttpSteps

/-- How far the request has come. -/
def httpStage : HttpPhase → Stage
  | .failed => .broken
  | .sendRequest => .writing
  | .recvReply | .forwarding => .behind

/-- The request is where its phase says. -/
def HttpWritten (conf : Nspconf) (session : HttpSession) : Prop :=
  (httpStage session.client.phase).Shows .sendRequest
    (httpRequest conf session.client) session.client.hsbuff
    session.journal

theorem httpRequest_ne_nil (conf : Nspconf) (client : ProxyHttp) :
    httpRequest conf client ≠ [] := by
  simp [httpRequest, crlf]

theorem httpWritten_takes
    {conf : Nspconf} {session after : HttpSession} {turn : SocketTurn}
    (takes : Takes conf session turn after)
    (written : HttpWritten conf session) :
    HttpWritten conf after := by
  unfold HttpWritten at written ⊢
  cases takes with
  | told finished =>
      exact written
  | stalls sending send =>
      rw [sending] at written
      have begun := begun_sendEntries written turn.send
      simp only [sending]
      refine .inr ⟨offered_ne_nil (httpRequest_ne_nil _ _) _, ?_⟩
      rw [send] at begun ⊢
      exact begun
  | breaks sending send broken =>
      rw [sending] at written
      exact .inr ⟨_, begun_sendEntries written turn.send⟩
  | writes sending send left =>
      rw [sending] at written
      have begun := begun_sendEntries written turn.send
      simp only [sending]
      refine .inr ⟨left, ?_⟩
      rw [send] at begun ⊢
      exact begun
  | wrote sending send left =>
      rw [sending] at written
      have begun := begun_sendEntries written turn.send
      rw [send] at begun ⊢
      simp only [unsent, left] at begun
      exact begun
  | idles receiving arrival =>
      exact written
  | loses receiving arrival =>
      exact written.breaks _
  | @reads next receiving arrived received =>
      have same :
          httpRequest conf next = httpRequest conf session.client := by
        simp only [httpRequest, authority, received.addr, received.port]
      rw [receiving] at written
      have kept := Stage.Shows.append written
        (untouched_readEntries HttpPhase.sendRequest
          HttpPhase.recvReply
          (session.unread.take (consumed turn session)))
      simp only [same]
      rcases verdict_cases
          (session.client.hsbuff ++ looked turn session) with
        waits | forwards | fails
      · rw [received.phase, waits]
        exact kept
      · rw [received.phase, forwards]
        exact kept
      · rw [received.phase, fails]
        exact kept.breaks _

/-- A phase which is not `PHASE_FAILED` begins with an empty buffer. -/
theorem httpHsbuff_of_entered
    {conf : Nspconf} {session after : HttpSession} {turn : SocketTurn}
    (takes : Takes conf session turn after)
    (entered : after.client.phase ≠ session.client.phase)
    (unfailed : after.client.phase ≠ .failed) :
    after.client.hsbuff = [] := by
  cases takes with
  | told finished =>
      exact absurd rfl entered
  | stalls sending send =>
      exact absurd rfl entered
  | breaks sending send broken =>
      exact absurd rfl unfailed
  | writes sending send left =>
      exact absurd rfl entered
  | wrote sending send left =>
      rfl
  | idles receiving arrival =>
      exact absurd rfl entered
  | loses receiving arrival =>
      exact absurd rfl unfailed
  | reads receiving arrived received =>
      rcases verdict_cases
          (session.client.hsbuff ++ looked turn session) with
        waits | forwards | fails
      · exact absurd
          (received.phase.trans (waits.trans receiving.symm)) entered
      · exact received.cleared (received.phase.trans forwards)
      · exact absurd (received.phase.trans fails) unfailed

/-- The authority of the target, as the request has it. -/
def targetAuthority (addr : Text) (port : UInt16) : Text :=
  (if 0x3a ∈ addr then ascii "[" ++ addr ++ ascii "]" else addr) ++
    ascii ":" ++ decimal port.toNat

/-- The CONNECT request, with the credentials in base64. -/
def connectRequest (conf : Nspconf) (addr : Text) (port : UInt16) :
    Text :=
  ascii "CONNECT " ++ targetAuthority addr port ++ ascii " HTTP/1.1" ++
    crlf ++ ascii "Host: " ++ targetAuthority addr port ++ crlf ++
    (if conf.proxyuser = [] then
      []
    else
      ascii "Proxy-Authorization: Basic " ++
        base64Groups (conf.proxyuser ++ [0x3a] ++ conf.proxypass) ++
        crlf) ++
    crlf

theorem length_base64Groups (binary : List UInt8) :
    (base64Groups binary).length = (binary.length + 2) / 3 * 4 := by
  induction binary using base64Groups.induct with
  | case1 => rfl
  | case2 a => simp [base64Groups]
  | case3 a b => simp [base64Groups]
  | case4 a b c rest induction =>
      simp only [base64Groups, List.length_cons, induction]
      omega

theorem length_decimal (port : UInt16) :
    (decimal port.toNat).length ≤ 5 := by
  rw [decimal, List.length_map]
  refine Nat.toDigits_length 10 port.toNat 5 (by decide) ?_
  have bound := port.toNat_lt
  omega

section Request

variable {conf : Nspconf} (user : conf.proxyuser.length ≤ authMaxlen)
  (pass : conf.proxypass.length ≤ authMaxlen)

include user pass

/-- The buffers for the credentials are large enough. -/
theorem basicToken_eq :
    basicToken conf =
      base64Groups (conf.proxyuser ++ [0x3a] ++ conf.proxypass) := by
  have short :
      (conf.proxyuser ++ [0x3a] ++ conf.proxypass).length ≤
        authMaxlen * 2 + 1 := by
    simp only [List.length_append, List.length_cons, List.length_nil]
    omega
  simp only [basicToken, List.take_of_length_le short, base64Encode]
  rw [if_neg ?_]
  · rfl
  · simp only [authMaxlen] at short ⊢
    omega

theorem httpRequest_eq (client : ProxyHttp) :
    httpRequest conf client =
      connectRequest conf client.addr client.port := by
  have named : authority client = targetAuthority client.addr client.port := by
    simp only [authority, targetAuthority]
    split
    · rfl
    · rfl
  simp only [httpRequest, connectRequest, named,
    basicToken_eq user pass]
  by_cases anonymous : conf.proxyuser = []
  · simp [anonymous]
  · simp [anonymous]

/-- The request and its NUL fit the buffer. -/
theorem length_connectRequest
    {addr : Text} (short : addr.length ≤ servnameMaxlen)
    (port : UInt16) :
    (connectRequest conf addr port).length < httpHsBuff := by
  have digits := length_decimal port
  have bound : addr.length ≤ 255 := short
  have named : (targetAuthority addr port).length ≤ 263 := by
    have colon : (ascii ":").length = 1 := by decide
    have opening : (ascii "[").length = 1 := by decide
    have closing : (ascii "]").length = 1 := by decide
    simp only [targetAuthority, List.length_append, colon]
    split
    · simp only [List.length_append, opening, closing]
      omega
    · omega
  have token :
      (base64Groups
        (conf.proxyuser ++ [0x3a] ++ conf.proxypass)).length ≤ 684 := by
    rw [length_base64Groups]
    simp only [List.length_append, List.length_cons, List.length_nil,
      authMaxlen] at user pass ⊢
    omega
  have connect : (ascii "CONNECT ").length = 8 := by decide
  have version : (ascii " HTTP/1.1").length = 9 := by decide
  have host : (ascii "Host: ").length = 6 := by decide
  have basic : (ascii "Proxy-Authorization: Basic ").length = 27 := by
    decide
  have line : crlf.length = 2 := by decide
  simp only [connectRequest, List.length_append, connect, version, host,
    line, httpHsBuff]
  split
  · simp only [List.length_nil]
    omega
  · simp only [List.length_append, basic, line]
    omega

end Request

/-- What a session of the HTTP client sends. -/
structure HttpOutput
    (conf : Nspconf) (addr : Text) (port : UInt16)
    (session : HttpSession) : Prop where
  message :
    (httpStage session.client.phase).Shows .sendRequest
      (connectRequest conf addr port) session.client.hsbuff
      session.journal
  fits : (connectRequest conf addr port).length < httpHsBuff
  entered :
    ∀ turn, turn.Rereads →
      (httpStep conf session turn).client.phase ≠
        session.client.phase →
      (httpStep conf session turn).client.phase ≠ .failed →
      (httpStep conf session turn).client.hsbuff = []

theorem httpTarget_takes
    {conf : Nspconf} {session after : HttpSession} {turn : SocketTurn}
    (takes : Takes conf session turn after) :
    after.client.addr = session.client.addr ∧
      after.client.port = session.client.port := by
  cases takes with
  | reads receiving arrived received =>
      exact ⟨received.addr, received.port⟩
  | _ => exact ⟨rfl, rfl⟩

theorem httpOutput_of_reachable
    {conf : Nspconf} (user : conf.proxyuser.length ≤ authMaxlen)
    (pass : conf.proxypass.length ≤ authMaxlen) {addr : Text}
    {port : UInt16} {stream : List UInt8} {session : HttpSession}
    (reachable :
      (sessionSystem conf addr port stream).Reachable session) :
    HttpOutput conf addr port session := by
  have holds :
      HttpWritten conf session ∧
        (session.client.addr = addr ∧ session.client.port = port) ∧
        addr.length ≤ servnameMaxlen := by
    apply reachable.invariant
    · intro source begins
      rcases begins.client with ⟨short, events, same⟩
      refine ⟨?_, ?_, short⟩
      · rw [HttpWritten, same, begins.2.2]
        exact .inl ⟨rfl, rfl, rfl⟩
      · rw [same]
        exact ⟨rfl, rfl⟩
    · rintro source turn target ⟨written, ⟨addr, port⟩, short⟩ rereads
        handled
      cases handled
      have takes := takes_httpStep conf source rereads
      rcases httpTarget_takes takes with ⟨sameAddr, samePort⟩
      exact
        ⟨httpWritten_takes takes written,
          ⟨sameAddr.trans addr, samePort.trans port⟩, short⟩
  rcases holds with ⟨written, ⟨rfl, rfl⟩, short⟩
  constructor
  · rw [← httpRequest_eq user pass]
    exact written
  · exact length_connectRequest user pass short _
  · intro turn rereads
    exact httpHsbuff_of_entered (takes_httpStep conf session rereads)

end Http

/-! ## Both clients -/

/--
In every session each message is assembled once, fits its buffer and is sent
byte by byte as it was assembled, whatever the kernel accepts; and every phase
begins with an empty buffer.
-/
theorem handshake_output_once
    {conf : Nspconf} (user : conf.proxyuser.length ≤ authMaxlen)
    (pass : conf.proxypass.length ≤ authMaxlen) :
    (∀ inet type addr port stream session,
      (SocksSteps.Begins type addr port stream session →
        session.client.hsbuff = []) ∧
      ((SocksSteps.sessionSystem conf inet
          (SocksSteps.Begins type addr port stream)).Reachable session →
        SocksOutput conf inet type addr port session)) ∧
    ∀ addr port stream session,
      (HttpSteps.Begins addr port stream session →
        session.client.hsbuff = []) ∧
      ((HttpSteps.sessionSystem conf addr port stream).Reachable
          session →
        HttpOutput conf addr port session) := by
  constructor
  · intro inet type addr port stream session
    constructor
    · intro begins
      rcases begins.client with ⟨_, events, same⟩
      rw [same]
    · exact socksOutput_of_reachable user pass
  · intro addr port stream session
    constructor
    · intro begins
      rcases begins.client with ⟨_, events, same⟩
      rw [same]
    · exact httpOutput_of_reachable user pass

/-- The method list and the credentials are sent byte by byte. -/
theorem handshake_output_once_bytewise :
    ∃ session,
      acceptedIn .sendAuth session.journal = [1, 1, 0x75, 1, 0x70] ∧
        SocksOutput
          (SocksSteps.sampleConf (ascii "u") (ascii "p"))
          SocksSteps.sampleInet .tcpForward (ascii "example.org") 80
          session := by
  have passes :
      ((SocksSteps.sessionSystem
          (SocksSteps.sampleConf (ascii "u") (ascii "p"))
          SocksSteps.sampleInet
          (SocksSteps.Begins .tcpForward (ascii "example.org") 80
            [5, 2, 1, 0])).replay
        (SocksSteps.sampleSession .tcpForward [5, 2, 1, 0])
        (List.replicate 4 (SocksSteps.sampleTurn 0) ++
          [SocksSteps.sampleTurn 1] ++
          List.replicate 5 (SocksSteps.sampleTurn 0) ++
          [SocksSteps.sampleTurn 1, SocksSteps.sampleTurn 99])).map
        (fun session =>
          decide
            (session.client.phase = .recvReply ∧
              acceptedIn .sendAuth session.journal =
                [1, 1, 0x75, 1, 0x70])) =
        some true := by
    decide +kernel
  have first :
      (SocksSteps.sessionSystem
        (SocksSteps.sampleConf (ascii "u") (ascii "p"))
        SocksSteps.sampleInet
        (SocksSteps.Begins .tcpForward (ascii "example.org") 80
          [5, 2, 1, 0])).initial
        (SocksSteps.sampleSession .tcpForward [5, 2, 1, 0]) :=
    SocksSteps.begins_sampleSession _ _
  rcases System.Reachable.exists_replay (.start first) passes with
    ⟨session, reachable, facts⟩
  have short :
      (SocksSteps.sampleConf (ascii "u") (ascii "p")).proxyuser.length ≤
        authMaxlen := by
    decide
  have brief :
      (SocksSteps.sampleConf (ascii "u") (ascii "p")).proxypass.length ≤
        authMaxlen := by
    decide
  exact
    ⟨session, (of_decide_eq_true facts).2,
      ((handshake_output_once short brief).1 _ _ _ _ _ session).2
        reachable⟩

end Nsproxy.Handshake.Output
