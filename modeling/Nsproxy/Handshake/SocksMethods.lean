import Mathlib.Tactic.Common
import Nsproxy.Lib.Transition
import Nsproxy.Handshake.Output
import Nsproxy.Handshake.SocksExact
import Nsproxy.Handshake.SocksSteps

/-!
# The authentication method

`socks_handshake_output` offers the methods which the configuration allows,
and `socks_handshake_input` follows the method which the server selects.  The
list of the offered methods is not kept, and the input function takes the user
name and password method from any server.

The journal of a session still shows what was offered.  The client keeps to
its offer unless it offered no authentication and the server selects it.
-/

namespace Nsproxy.Handshake.SocksMethods

open Nsproxy.Conf
open Nsproxy.Lib.Transition
open Nsproxy.Lwip.Opts
open Nsproxy.Skutils
open Nsproxy.Socks
open Nsproxy.Handshake.Output
open Nsproxy.Handshake.Socket
open Nsproxy.Handshake.SocksExact
open Nsproxy.Handshake.SocksReply
open Nsproxy.Handshake.SocksSteps

/-! ## Offer and selection -/

/-- The methods in the list which was sent. -/
def offeredMethods (session : SocksSession) : List UInt8 :=
  (acceptedIn .sendMethod session.journal).drop 2

/-- The method which the server selected, once the client has read it. -/
def selectedMethod (stream : List UInt8) (session : SocksSession) :
    Option UInt8 :=
  (stream.take (stream.length - session.unread.length))[1]?

/-- One event follows the selection of the server as far as it was offered. -/
structure Agrees
    (stream : List UInt8) (session after : SocksSession) : Prop where
  auth :
    session.client.phase ≠ .sendAuth → after.client.phase = .sendAuth →
      2 ∈ offeredMethods session
  plain :
    session.client.phase = .recvMethod →
    after.client.phase = .sendRequest →
      selectedMethod stream after = some 0
  other :
    ∀ method, session.client.phase = .recvMethod →
      selectedMethod stream after = some method → method ≠ 0 →
      (method = 2 → 2 ∉ offeredMethods session) →
        after.client.phase = .failed

/-- Once the list is sent, it is the one of the configuration. -/
theorem offeredMethods_of_reachable
    {conf : Nspconf} {inet : Inet} {type : SocksType} {addr : Text}
    {port : UInt16} {stream : List UInt8} {session : SocksSession}
    (reachable :
      (sessionSystem conf inet
        (Begins type addr port stream)).Reachable session)
    (phase : session.client.phase = .recvMethod) :
    offeredMethods session =
      if conf.proxyuser = [] then [0] else [0, 2] := by
  rcases written_of_reachable reachable with ⟨written, _, _⟩
  have begun := written .sendMethod _ rfl rfl
  rw [phase] at begun
  have sent := begun.accepted
  rw [List.append_nil] at sent
  simp only [offeredMethods, sent, methodMessage]
  by_cases anonymous : conf.proxyuser = []
  · simp [anonymous]
  · simp [anonymous]

theorem selectedMethod_of_read
    {stream read : List UInt8} {session : SocksSession}
    (behind : stream = read ++ session.unread) :
    selectedMethod stream session = read[1]? := by
  have size : stream.length - session.unread.length = read.length := by
    rw [behind, List.length_append, Nat.add_sub_cancel]
  rw [selectedMethod, size, behind, List.take_left' rfl]

/-- A session which has left the method selection, or not begun it. -/
theorem agrees_elsewhere
    {conf : Nspconf} {inet : Inet} {stream : List UInt8}
    {session after : SocksSession} {turn : SocketTurn}
    (takes : Takes conf inet session turn after)
    (elsewhere : session.client.phase ≠ .recvMethod) :
    Agrees stream session after := by
  refine ⟨?_, fun phase => absurd phase elsewhere,
    fun _ phase => absurd phase elsewhere⟩
  intro outside entered
  cases takes with
  | told finished => exact absurd entered outside
  | stalls sending assembled send => exact absurd entered outside
  | breaks sending assembled send broken => cases entered
  | writes sending assembled send left => exact absurd entered outside
  | wrote sending assembled send left =>
      cases phase : session.client.phase with
      | sendMethod | sendAuth | sendRequest =>
          rw [phase] at entered
          cases entered
      | _ =>
          rw [phase] at sending
          cases sending
  | idles receiving arrival => exact absurd entered outside
  | loses receiving arrival => cases entered
  | reads receiving arrived received =>
      have verdict := received.phase.symm.trans entered
      cases phase : session.client.phase with
      | recvMethod => exact absurd phase elsewhere
      | recvAuth =>
          simp only [phase, SocksSteps.verdict] at verdict
          rcases authVerdict_cases
              (session.client.hsbuff ++ looked turn session) with
            ⟨_, same⟩ | ⟨_, same⟩ | ⟨_, same⟩
          · rw [same] at verdict
            cases verdict
          · rw [same] at verdict
            cases verdict
          · rw [same] at verdict
            cases verdict
      | recvReply =>
          simp only [phase, SocksSteps.verdict, replyVerdict] at verdict
          split at verdict
          · cases verdict
          · split at verdict
            · cases verdict
            · cases verdict
      | _ =>
          rw [phase] at receiving
          cases receiving

section Outcomes

variable {stream : List UInt8} {session after : SocksSession}

/-- Nothing was selected, and the client waits. -/
theorem agrees_waits
    (waits : after.client.phase = .recvMethod)
    (unselected : selectedMethod stream after = none) :
    Agrees stream session after := by
  constructor
  · intro _ entered
    rw [waits] at entered
    cases entered
  · intro _ entered
    rw [waits] at entered
    cases entered
  · intro method _ selected
    rw [unselected] at selected
    cases selected

/-- A client which fails follows no selection. -/
theorem agrees_failed (failed : after.client.phase = .failed) :
    Agrees stream session after := by
  constructor
  · intro _ entered
    rw [failed] at entered
    cases entered
  · intro _ entered
    rw [failed] at entered
    cases entered
  · intro _ _ _ _ _
    exact failed

theorem agrees_auth
    (authenticates : after.client.phase = .sendAuth)
    (offered : 2 ∈ offeredMethods session)
    (selects : selectedMethod stream after = some 2) :
    Agrees stream session after := by
  constructor
  · intro _ _
    exact offered
  · intro _ entered
    rw [authenticates] at entered
    cases entered
  · intro method _ selected _ refused
    rw [selects] at selected
    cases selected
    exact absurd offered (refused rfl)

theorem agrees_plain
    (requests : after.client.phase = .sendRequest)
    (selects : selectedMethod stream after = some 0) :
    Agrees stream session after := by
  constructor
  · intro _ entered
    rw [requests] at entered
    cases entered
  · intro _ _
    exact selects
  · intro method _ selected other
    rw [selects] at selected
    cases selected
    exact absurd rfl other

end Outcomes

/-- The selection of the server, in a session which may be misled by none. -/
theorem agrees_recvMethod
    {conf : Nspconf} {inet : Inet} {type : SocksType} {addr : Text}
    {port : UInt16} {stream : List UInt8}
    {session after : SocksSession} {turn : SocketTurn}
    (honest : conf.proxyuser ≠ [] ∨ ¬ [5, 2] <+: stream)
    (reachable :
      (sessionSystem conf inet
        (Begins type addr port stream)).Reachable session)
    (takes : Takes conf inet session turn after)
    (phase : session.client.phase = .recvMethod) :
    Agrees stream session after := by
  have offers := offeredMethods_of_reachable reachable phase
  have aligned := aligned_of_reachable reachable
  simp only [Aligned, phase] at aligned
  cases takes with
  | stalls sending | breaks sending | writes sending | wrote sending =>
      rw [phase] at sending
      cases sending
  | told finished =>
      rw [phase] at finished
      exact absurd rfl finished
  | idles receiving arrival =>
      apply agrees_waits phase
      rw [selectedMethod_of_read aligned.1]
      exact List.getElem?_eq_none (Nat.le_of_lt_succ aligned.2)
  | loses receiving arrival => exact agrees_failed rfl
  | @reads next receiving arrived received =>
      have behind :
          stream =
            (session.client.hsbuff ++ looked turn session) ++
              session.unread.drop (consumed inet turn session) := by
        simp only [consumed, phase]
        rw [List.append_assoc, looked_append]
        exact aligned.1
      have verdict := received.phase
      simp only [phase, SocksSteps.verdict] at verdict
      have selects :
          selectedMethod stream
              { client := next
                unread := session.unread.drop (consumed inet turn session)
                journal :=
                  session.journal ++
                    readEntries session.client.phase
                      (session.unread.take
                        (consumed inet turn session)) } =
            (session.client.hsbuff ++ looked turn session)[1]? :=
        selectedMethod_of_read behind
      generalize session.client.hsbuff ++ looked turn session = seen
        at behind verdict selects
      rcases methodVerdict_cases seen with
        ⟨few, same⟩ | ⟨same, led⟩ | ⟨same, led⟩ | ⟨_, _, same⟩
      · apply agrees_waits (verdict.trans same)
        rw [selects]
        exact List.getElem?_eq_none (Nat.le_of_lt_succ few)
      · have named : conf.proxyuser ≠ [] := by
          refine honest.resolve_right (not_not.mpr ?_)
          rw [behind, same]
          exact List.prefix_append _ _
        rw [if_neg named] at offers
        apply agrees_auth (verdict.trans led)
        · rw [offers]
          exact List.mem_cons_of_mem _ (List.mem_singleton_self _)
        · rw [selects, same]
          rfl
      · apply agrees_plain (verdict.trans led)
        rw [selects, same]
        rfl
      · exact agrees_failed (verdict.trans same)

/-! ## A server which selects what was not offered -/

/-- Any session may be driven into the method selection by one event. -/
theorem exists_recvMethod
    (conf : Nspconf) (inet : Inet) (type : SocksType) {addr : Text}
    (port : UInt16) (stream : List UInt8)
    (short : addr.length ≤ servnameMaxlen) :
    ∃ session,
      (sessionSystem conf inet
          (Begins type addr port stream)).Reachable session ∧
        session.client.phase = .recvMethod ∧
        session.client.hsbuff = [] ∧ session.unread = stream := by
  let client : ProxySocks :=
    { events := epollout
      addr := addr
      port := port
      type := type
      phase := .sendMethod
      hsbuff := []
      relay := none }
  let session : SocksSession :=
    { client := client, unread := stream, journal := [] }
  have begins : Begins type addr port stream session := by
    refine ⟨⟨true, ?_⟩, rfl, rfl⟩
    simp only [socksCreate]
    rw [if_neg (Nat.not_lt.mpr short)]
    rfl
  rcases takes_socksStep conf inet session (rereads_sampleTurn 3) with
    ⟨after, handled, takes⟩
  have whole : (methodMessage conf).drop (3 + 1) = [] := by
    unfold methodMessage
    split
    · rfl
    · rfl
  have permitted :
      (sessionSystem conf inet (Begins type addr port stream)).enabled
        session (sampleTurn 3) := rereads_sampleTurn 3
  have reachable :
      (sessionSystem conf inet
        (Begins type addr port stream)).Reachable after :=
    .next (.start begins) permitted handled
  cases takes with
  | told finished => exact absurd rfl finished
  | stalls sending assembled send => cases send
  | breaks sending assembled send broken => cases send
  | writes sending assembled send left =>
      cases assembled
      cases send
      exact absurd whole left
  | wrote sending assembled send left =>
      exact ⟨_, reachable, rfl, rfl, rfl⟩
  | idles receiving arrival => cases receiving
  | loses receiving arrival => cases receiving
  | reads receiving arrived received => cases receiving

/-- The client sends its credentials to a server which it did not offer them. -/
theorem exists_not_agrees
    {conf : Nspconf} (anonymous : conf.proxyuser = []) (inet : Inet)
    (type : SocksType) {addr : Text} (port : UInt16)
    {stream : List UInt8} (short : addr.length ≤ servnameMaxlen)
    (selects : [5, 2] <+: stream) :
    ∃ session turn after,
      (sessionSystem conf inet
          (Begins type addr port stream)).Reachable session ∧
        turn.Rereads ∧
        socksStep conf inet session turn = .ok after ∧
        ¬ Agrees stream session after := by
  rcases exists_recvMethod conf inet type port stream short with
    ⟨session, reachable, phase, empty, unread⟩
  rcases takes_socksStep conf inet session (rereads_sampleTurn 1) with
    ⟨after, handled, takes⟩
  have looks : looked (sampleTurn 1) session = [5, 2] := by
    rcases selects with ⟨rest, rfl⟩
    simp [looked, sampleTurn, Arrival.shown, requested, phase, empty,
      unread, socksHsBuff]
  refine
    ⟨session, _, after, reachable, rereads_sampleTurn 1, handled, ?_⟩
  intro agrees
  have entered : after.client.phase = .sendAuth := by
    cases takes with
    | stalls sending | breaks sending | writes sending | wrote sending =>
        rw [phase] at sending
        cases sending
    | told finished =>
        rw [phase] at finished
        exact absurd rfl finished
    | idles receiving arrival =>
        rcases arrival with impossible | impossible
        · cases impossible
        · cases impossible
    | loses receiving arrival =>
        rcases arrival with ⟨_, _, impossible⟩ | ⟨_, nothing⟩
        · cases impossible
        · rw [looks] at nothing
          cases nothing
    | reads receiving arrived received =>
        rw [received.phase, looks, empty, phase]
        rfl
  have offered : 2 ∈ offeredMethods session := by
    refine agrees.auth ?_ entered
    rw [phase]
    exact SocksPhase.noConfusion
  rw [offeredMethods_of_reachable reachable phase, if_pos anonymous,
    List.mem_singleton] at offered
  cases offered

/--
The client continues only with a method which it offered, in every session
with a server which sends this stream, exactly when it offers authentication
or the server does not select it.
-/
theorem socks_method_offered_iff
    (conf : Nspconf) (inet : Inet) (type : SocksType) {addr : Text}
    (port : UInt16) (stream : List UInt8)
    (short : addr.length ≤ servnameMaxlen) :
    (∀ session turn after,
      (sessionSystem conf inet
        (Begins type addr port stream)).Reachable session →
      turn.Rereads →
      socksStep conf inet session turn = .ok after →
      Agrees stream session after) ↔
    (conf.proxyuser ≠ [] ∨ ¬ [5, 2] <+: stream) := by
  constructor
  · intro claimed
    by_contra misled
    rw [not_or, not_not, not_not] at misled
    rcases exists_not_agrees misled.1 inet type port short misled.2 with
      ⟨session, turn, after, reachable, rereads, handled, disagrees⟩
    exact disagrees
      (claimed session turn after reachable rereads handled)
  · intro honest session turn after reachable rereads handled
    have takes := takes_of_handled rereads handled
    by_cases phase : session.client.phase = .recvMethod
    · exact agrees_recvMethod honest reachable takes phase
    · exact agrees_elsewhere takes phase

/-- A client with credentials, and a server which asks for them. -/
theorem socks_method_offered_named :
    (ascii "example.org").length ≤ servnameMaxlen ∧
      ∀ session turn after,
        (sessionSystem (sampleConf (ascii "user") (ascii "pass"))
          sampleInet
          (Begins .tcpForward (ascii "example.org") 80
            [5, 2])).Reachable session →
        turn.Rereads →
        socksStep (sampleConf (ascii "user") (ascii "pass")) sampleInet
            session turn = .ok after →
        Agrees [5, 2] session after := by
  have short : (ascii "example.org").length ≤ servnameMaxlen := by decide
  refine ⟨short, ?_⟩
  apply (socks_method_offered_iff (sampleConf (ascii "user") (ascii "pass"))
    sampleInet .tcpForward 80 [5, 2] short).mpr
  exact .inl (by decide)

/-- A client without credentials, and a server which selects method 2. -/
theorem socks_method_not_offered :
    ¬ ∀ session turn after,
      (sessionSystem (sampleConf [] []) sampleInet
        (Begins .tcpForward (ascii "example.org") 80
          [5, 2])).Reachable session →
      turn.Rereads →
      socksStep (sampleConf [] []) sampleInet session turn = .ok after →
      Agrees [5, 2] session after := by
  intro claimed
  have short : (ascii "example.org").length ≤ servnameMaxlen := by decide
  have anonymous : (sampleConf [] []).proxyuser = [] := rfl
  rcases exists_not_agrees anonymous sampleInet .tcpForward 80 short
      (List.prefix_refl [5, 2]) with
    ⟨session, turn, after, reachable, rereads, handled, disagrees⟩
  exact disagrees (claimed session turn after reachable rereads handled)

end Nsproxy.Handshake.SocksMethods
