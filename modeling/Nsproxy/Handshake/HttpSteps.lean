import Mathlib.Tactic.Common
import Nsproxy.Http
import Nsproxy.Lib.Transition
import Nsproxy.Handshake.HttpHead
import Nsproxy.Handshake.Socket

/-!
# Sessions of the HTTP client

The client of `http.c` on its socket, in the same terms as the SOCKS5 client.
While the client waits for the response, the outcome of an event is a verdict
on all bytes of the response which it has seen.
-/

namespace Nsproxy.Handshake.HttpSteps

open Nsproxy.Conf
open Nsproxy.Http
open Nsproxy.Lib.Framing
open Nsproxy.Lib.Transition
open Nsproxy.Lwip.Opts
open Nsproxy.Skutils
open Nsproxy.Socks
open Nsproxy.Handshake.HttpHead
open Nsproxy.Handshake.Socket

/-! ## The system -/

abbrev HttpSession : Type := Session ProxyHttp HttpPhase

/-- The length which the first `recv` asks for. -/
def requested (client : ProxyHttp) : Nat :=
  match client.phase with
  | .recvReply => httpHsBuff - client.hsbuff.length - 1
  | _ => 0

/-- The bytes which the first `recv` of an event shows. -/
def looked (turn : SocketTurn) (session : HttpSession) : List UInt8 :=
  (turn.arrival.shown session.unread).take (requested session.client)

/-- How many bytes an event takes from the socket. -/
def consumed (turn : SocketTurn) (session : HttpSession) : Nat :=
  responseLength session.client (looked turn session)

/-- The entries of an event. -/
def entries (conf : Nspconf) (turn : SocketTurn) (session : HttpSession) :
    List (Entry HttpPhase) :=
  match session.client.phase with
  | .sendRequest =>
      sendEntries .sendRequest (httpRequest conf session.client)
        session.client.hsbuff turn.send
  | .recvReply =>
      readEntries .recvReply (session.unread.take (consumed turn session))
  | _ => []

/-- An event of the socket. -/
def httpStep (conf : Nspconf) (session : HttpSession) (turn : SocketTurn) :
    HttpSession where
  client :=
    (httpEpcbEvents conf (turn.answers session.unread) turn.events
      session.client).1
  unread :=
    if session.client.phase = .recvReply then
      session.unread.drop (consumed turn session)
    else
      session.unread
  journal := session.journal ++ entries conf turn session

/-- The client was just made, and the server will send this stream. -/
def Begins
    (addr : Text) (port : UInt16) (stream : List UInt8)
    (session : HttpSession) : Prop :=
  (∃ accepted,
      httpTcpCreate addr port true accepted = some session.client) ∧
    session.unread = stream ∧ session.journal = []

/-- The sessions in which the server sends this stream. -/
def sessionSystem
    (conf : Nspconf) (addr : Text) (port : UInt16)
    (stream : List UInt8) : System Fault HttpSession SocketTurn where
  initial := Begins addr port stream
  enabled _ turn := turn.Rereads
  step session turn := .ok (httpStep conf session turn)

theorem Begins.client
    {addr : Text} {port : UInt16} {stream : List UInt8}
    {session : HttpSession} (begins : Begins addr port stream session) :
    addr.length ≤ servnameMaxlen ∧
      ∃ events,
        session.client =
          { events := events
            addr := addr
            port := port
            phase := .sendRequest
            hsbuff := [] } := by
  rcases begins with ⟨⟨accepted, made⟩, _, _⟩
  simp only [httpTcpCreate] at made
  split at made
  · cases made
  · next short =>
      rw [if_pos trivial] at made
      exact ⟨Nat.le_of_not_lt short, _, (Option.some.inj made).symm⟩

/-! ## What an event comes to -/

/-- The phase into which the bytes of a response lead. -/
def verdict (seen : List UInt8) : HttpPhase :=
  match strstrCrlf2 (cstr seen) with
  | none => if seen.length = httpHsBuff - 1 then .failed else .recvReply
  | some _ =>
      if scanResponse (cstr seen) = some 200 then .forwarding else .failed

theorem verdict_cases (seen : List UInt8) :
    verdict seen = .recvReply ∨ verdict seen = .forwarding ∨
      verdict seen = .failed := by
  unfold verdict
  split
  · split
    · exact .inr (.inr rfl)
    · exact .inl rfl
  · split
    · exact .inr (.inl rfl)
    · exact .inr (.inr rfl)

/-- The client after it has seen these bytes of the response. -/
structure Received (client next : ProxyHttp) (seen : List UInt8) :
    Prop where
  addr : next.addr = client.addr
  port : next.port = client.port
  phase : next.phase = verdict seen
  waiting : next.phase = .recvReply → next.hsbuff = seen
  cleared : next.phase = .forwarding → next.hsbuff = []

/-- What an event of the socket comes to. -/
inductive Takes
    (conf : Nspconf) (session : HttpSession) (turn : SocketTurn) :
    HttpSession → Prop where
  /-- The handshake is over, and the user is told of the event. -/
  | told
      (finished : session.client.phase.toPhase ≠ .handshake) :
      Takes conf session turn session
  /-- The kernel accepts nothing. -/
  | stalls
      (sending : session.client.phase = .sendRequest)
      (send : turn.send = .err .eagain) :
      Takes conf session turn
        { client :=
            { session.client with
              hsbuff :=
                offered (httpRequest conf session.client)
                  session.client.hsbuff }
          unread := session.unread
          journal :=
            session.journal ++
              sendEntries .sendRequest (httpRequest conf session.client)
                session.client.hsbuff turn.send }
  | breaks
      (sending : session.client.phase = .sendRequest)
      (send : turn.send = .err errno)
      (broken : errno ≠ .eagain) :
      Takes conf session turn
        { client :=
            { session.client with
              hsbuff :=
                offered (httpRequest conf session.client)
                  session.client.hsbuff
              phase := .failed }
          unread := session.unread
          journal :=
            session.journal ++
              sendEntries .sendRequest (httpRequest conf session.client)
                session.client.hsbuff turn.send }
  /-- The kernel accepts a part of the request. -/
  | writes
      (sending : session.client.phase = .sendRequest)
      (send : turn.send = .accept more)
      (left :
        (offered (httpRequest conf session.client)
          session.client.hsbuff).drop (more + 1) ≠ []) :
      Takes conf session turn
        { client :=
            { session.client with
              hsbuff :=
                (offered (httpRequest conf session.client)
                  session.client.hsbuff).drop (more + 1) }
          unread := session.unread
          journal :=
            session.journal ++
              sendEntries .sendRequest (httpRequest conf session.client)
                session.client.hsbuff turn.send }
  /-- The kernel accepts all that is left. -/
  | wrote
      (sending : session.client.phase = .sendRequest)
      (send : turn.send = .accept more)
      (left :
        (offered (httpRequest conf session.client)
          session.client.hsbuff).drop (more + 1) = []) :
      Takes conf session turn
        { client :=
            { session.client with
              hsbuff := []
              phase := .recvReply
              events := events }
          unread := session.unread
          journal :=
            session.journal ++
              sendEntries .sendRequest (httpRequest conf session.client)
                session.client.hsbuff turn.send }
  /-- Nothing has arrived. -/
  | idles
      (receiving : session.client.phase = .recvReply)
      (arrival :
        turn.arrival = .waits ∨ turn.arrival = .fails .eagain) :
      Takes conf session turn session
  /-- The connection is lost or the stream has ended. -/
  | loses
      (receiving : session.client.phase = .recvReply)
      (arrival :
        (∃ errno, errno ≠ .eagain ∧ turn.arrival = .fails errno) ∨
          ((∃ more, turn.arrival = .shows more) ∧
            looked turn session = [])) :
      Takes conf session turn
        { session with client := { session.client with phase := .failed } }
  /-- Bytes have arrived. -/
  | reads
      (receiving : session.client.phase = .recvReply)
      (arrived : looked turn session ≠ [])
      (received :
        Received session.client next
          (session.client.hsbuff ++ looked turn session)) :
      Takes conf session turn
        { client := next
          unread := session.unread.drop (consumed turn session)
          journal :=
            session.journal ++
              readEntries .recvReply
                (session.unread.take (consumed turn session)) }

/-- The head is taken up to its end, and all of an incomplete one. -/
theorem responseLength_eq (client : ProxyHttp) (peeked : List UInt8) :
    responseLength client peeked =
      headFinder.taken client.hsbuff peeked :=
  rfl

theorem responseLength_le (client : ProxyHttp) (peeked : List UInt8) :
    responseLength client peeked ≤ peeked.length := by
  rw [responseLength_eq]
  exact headFinder.taken_le client.hsbuff peeked

theorem received_acceptResponse
    {client next : ProxyHttp} {seen : List UInt8} {size : Nat}
    (found : strstrCrlf2 (cstr seen) = some size)
    (addr : next.addr = client.addr) (port : next.port = client.port)
    (accepted : Bool) :
    Received client (acceptResponse seen accepted next).1 seen := by
  simp only [acceptResponse]
  split
  · next unmatched =>
      refine ⟨addr, port, ?_, ?_, ?_⟩
      · simp [verdict, found, unmatched, failHttp]
      · intro impossible
        cases impossible
      · intro impossible
        cases impossible
  · next code scanned =>
      split
      · next other =>
          refine ⟨addr, port, ?_, ?_, ?_⟩
          · simp [verdict, found, scanned, other, failHttp]
          · intro impossible
            cases impossible
          · intro impossible
            cases impossible
      · next granted =>
          refine ⟨addr, port, ?_, ?_, fun _ => rfl⟩
          · simp [verdict, found, scanned, not_not.mp granted]
          · intro impossible
            cases impossible

theorem received_httpHandshakeInput
    {client : ProxyHttp} (phase : client.phase = .recvReply)
    {bytes found : List UInt8} (front : bytes <+: found)
    (accepted : Bool) (some_byte : bytes.take (requested client) ≠ []) :
    Received client
      (httpHandshakeInput (.data bytes) (.data found) accepted client).1
      (client.hsbuff ++ bytes.take (requested client)) := by
  have size :
      requested client = httpHsBuff - client.hsbuff.length - 1 := by
    simp [requested, phase]
  rw [size] at some_byte ⊢
  have shownFront :
      bytes.take (httpHsBuff - client.hsbuff.length - 1) <+: found :=
    (List.take_prefix _ _).trans front
  simp only [httpHandshakeInput]
  generalize bytes.take (httpHsBuff - client.hsbuff.length - 1) = shown
    at some_byte shownFront ⊢
  cases shown with
  | nil =>
      exact absurd rfl some_byte
  | cons byte more =>
      simp only [takeResponse]
      generalize byte :: more = shown at shownFront ⊢
      have wanted := responseLength_le client shown
      have enough := shownFront.length_le
      have all :
          (found.take (responseLength client shown)).length =
            responseLength client shown := by
        rw [List.length_take]
        omega
      have same :
          found.take (responseLength client shown) =
            shown.take (responseLength client shown) := by
        rcases shownFront with ⟨rest, rfl⟩
        exact List.take_append_of_le_length wanted
      have whole :
          client.hsbuff ++ found.take (responseLength client shown) ++
              shown.drop (responseLength client shown) =
            client.hsbuff ++ shown := by
        rw [same, List.append_assoc, List.take_append_drop]
      rw [if_neg (not_not.mpr all)]
      cases located : strstrCrlf2 (cstr (client.hsbuff ++ shown)) with
      | none =>
          have length : responseLength client shown = shown.length := by
            simp [responseLength, responseEnd, located]
          have taken : found.take shown.length = shown :=
            (List.prefix_iff_eq_take.mp shownFront).symm
          simp only [responseEnd, located, length, taken, if_true]
          split
          · next full =>
              refine ⟨rfl, rfl, ?_, ?_, ?_⟩
              · simp only [verdict, located, if_pos full]
                rfl
              · intro impossible
                cases impossible
              · intro impossible
                cases impossible
          · next room =>
              refine ⟨rfl, rfl, ?_, fun _ => rfl, ?_⟩
              · simp only [verdict, located, if_neg room]
                exact phase
              · intro impossible
                rw [phase] at impossible
                cases impossible
      | some ends =>
          have complete :
              ¬ responseEnd client shown = none := by
            simp [responseEnd, located]
          rw [if_neg complete, whole]
          apply received_acceptResponse located
          · rfl
          · rfl

theorem consumed_eq_zero
    {turn : SocketTurn} {session : HttpSession}
    (nothing : looked turn session = []) :
    consumed turn session = 0 := by
  have bound := responseLength_le session.client (looked turn session)
  rw [nothing] at bound
  rw [consumed, nothing]
  exact Nat.eq_zero_of_le_zero bound

theorem takes_sending
    {conf : Nspconf} {session : HttpSession} {turn : SocketTurn}
    (sending : session.client.phase = .sendRequest) :
    Takes conf session turn (httpStep conf session turn) := by
  have out :
      httpEpcbEvents conf (turn.answers session.unread) turn.events
          session.client =
        sendRequest turn.send turn.epoll
          { session.client with
            hsbuff :=
              offered (httpRequest conf session.client)
                session.client.hsbuff } := by
    simp only [httpEpcbEvents, sending, httpHandshakeOutput,
      SocketTurn.answers, offered]
    split
    · rfl
    · rw [← sending]
  have stepped :
      httpStep conf session turn =
        { client :=
            (sendRequest turn.send turn.epoll
              { session.client with
                hsbuff :=
                  offered (httpRequest conf session.client)
                    session.client.hsbuff }).1
          unread := session.unread
          journal :=
            session.journal ++
              sendEntries .sendRequest (httpRequest conf session.client)
                session.client.hsbuff turn.send } := by
    have other : ¬ session.client.phase = .recvReply := by
      rw [sending]
      exact HttpPhase.noConfusion
    have entered :
        entries conf turn session =
          sendEntries .sendRequest (httpRequest conf session.client)
            session.client.hsbuff turn.send := by
      simp only [entries, sending]
    rw [httpStep, out, entered, if_neg other]
  rw [stepped]
  cases send : turn.send with
  | err errno =>
      simp only [sendRequest]
      split
      · next again =>
          cases again
          rw [← send]
          exact .stalls sending send
      · next broken =>
          rw [← send]
          exact .breaks sending send broken
  | accept more =>
      simp only [sendRequest]
      split
      · next left =>
          rw [← send]
          exact .writes sending send left
      · next left =>
          rw [← send]
          exact .wrote sending send (not_not.mp left)

theorem takes_receiving
    {conf : Nspconf} {session : HttpSession} {turn : SocketTurn}
    (rereads : turn.Rereads)
    (receiving : session.client.phase = .recvReply) :
    Takes conf session turn (httpStep conf session turn) := by
  have input :
      (httpEpcbEvents conf (turn.answers session.unread) turn.events
          session.client).1 =
        (httpHandshakeInput (turn.arrival.answer session.unread)
          (turn.again.answer session.unread) turn.epoll
          session.client).1 := by
    simp [httpEpcbEvents, receiving, SocketTurn.answers]
  by_cases nothing : looked turn session = []
  · have zero := consumed_eq_zero nothing
    simp only [httpStep, input, entries, receiving,
      zero, List.drop_zero, List.take_zero, readEntries, if_true,
      List.append_nil]
    rcases turn with ⟨events, send, arrival, again, epoll⟩
    cases arrival with
    | waits =>
        exact .idles receiving (.inl rfl)
    | fails errno =>
        simp only [Arrival.answer, httpHandshakeInput]
        split
        · next retry =>
            cases retry
            exact .idles receiving (.inr rfl)
        · next broken =>
            exact .loses receiving (.inl ⟨errno, broken, rfl⟩)
    | shows more =>
        have blind := nothing
        simp only [looked, requested, receiving, Arrival.shown] at blind
        simp only [Arrival.answer, httpHandshakeInput, blind]
        exact .loses receiving (.inr ⟨⟨more, rfl⟩, nothing⟩)
  · simp only [httpStep, input, entries, receiving]
    refine .reads receiving nothing ?_
    rcases shows_of_take_shown nothing with ⟨more, shows, _⟩
    rcases rereads.answer shows session.unread with
      ⟨bytes, found, front⟩
    rw [shows] at front
    rw [found, looked, shows]
    apply received_httpHandshakeInput receiving front
    rw [looked, shows] at nothing
    exact nothing

/-- Every event of the socket is handled in one of the listed ways. -/
theorem takes_httpStep
    (conf : Nspconf) (session : HttpSession) {turn : SocketTurn}
    (rereads : turn.Rereads) :
    Takes conf session turn (httpStep conf session turn) := by
  cases phase : session.client.phase with
  | sendRequest =>
      exact takes_sending phase
  | recvReply =>
      exact takes_receiving rereads phase
  | failed =>
      have stays : httpStep conf session turn = session := by
        simp [httpStep, httpEpcbEvents, phase, entries]
      rw [stays]
      refine .told ?_
      rw [phase]
      exact Phase.noConfusion
  | forwarding =>
      have stays : httpStep conf session turn = session := by
        simp [httpStep, httpEpcbEvents, phase, entries]
      rw [stays]
      refine .told ?_
      rw [phase]
      exact Phase.noConfusion

end Nsproxy.Handshake.HttpSteps
