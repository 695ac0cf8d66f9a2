import Mathlib.Tactic.Common
import Nsproxy.Lib.Transition
import Nsproxy.Handshake.HttpSteps

/-!
# The HTTP handshake and the head of the response

`Exact` is what the handshake ought to do with the response: the head alone
decides, the client reads the head and nothing behind it, and it decides as
soon as the head has arrived or cannot arrive any more.

The client finds the end of the head wherever the stream is cut, but it reads
the status code off everything which the kernel showed.  When a head has no
code and the data behind it begins with `200`, it depends on the arrivals
whether the client takes that for the code.  `Overrun` says that this can
happen, and it is the only way in which the handshake is not exact.
-/

namespace Nsproxy.Handshake.HttpExact

open Nsproxy.Conf
open Nsproxy.Http
open Nsproxy.Lib.Framing
open Nsproxy.Lib.Transition
open Nsproxy.Lwip.Opts
open Nsproxy.Skutils
open Nsproxy.Socks
open Nsproxy.Handshake.HttpHead
open Nsproxy.Handshake.HttpSteps
open Nsproxy.Handshake.Socket

/-! ## What the handshake ought to do -/

/-- The longest head which the client reads. -/
def headMax : Nat := httpHsBuff - 1

/-- The head of the response grants the request. -/
structure Grants (stream : List UInt8) (size : Nat) : Prop where
  head : HeadEnds stream size
  short : size ≤ headMax
  code : scanResponse (stream.take size) = some 200

/-- No call fails with another error than `EAGAIN`. -/
def soundSystem
    (conf : Nspconf) (addr : Text) (port : UInt16)
    (stream : List UInt8) : System Fault HttpSession SocketTurn :=
  (sessionSystem conf addr port stream).restrict (fun _ => True)
    fun _ turn => turn.Sound

/-- How many bytes of the stream have arrived when a `recv` shows these. -/
def arrived (stream : List UInt8) (session : HttpSession) (more : Nat) :
    Nat :=
  min (stream.length - session.unread.length + (more + 1)) stream.length

/-- What becomes of a client when so many bytes of the stream have arrived. -/
structure Decides
    (stream : List UInt8) (arrived : Nat) (session after : HttpSession) :
    Prop where
  /-- The head has arrived. -/
  granted :
    ∀ size, Grants stream size → size ≤ arrived →
      after.client.phase = .forwarding
  refused :
    ∀ size, HeadEnds stream size → size ≤ headMax →
      scanResponse (stream.take size) ≠ some 200 → size ≤ arrived →
      after.client.phase = .failed
  /-- The head is too long, or the stream has ended without one. -/
  endless :
    (∀ size, HeadEnds stream size → headMax < size) →
      headMax ≤ arrived ∨ session.unread = [] →
      after.client.phase = .failed
  /-- The client reads on as long as it does not decide. -/
  reads :
    after.client.phase = .recvReply →
      after.unread.length < session.unread.length

/-- The handshake reads the head of the response and goes by it. -/
structure Exact
    (conf : Nspconf) (stream : List UInt8) (session : HttpSession) :
    Prop where
  forwards :
    session.client.phase = .forwarding →
      ∃ size, Grants stream size ∧ session.unread = stream.drop size
  fails :
    session.client.phase = .failed → ∀ size, ¬ Grants stream size
  decides :
    ∀ turn more, session.client.phase = .recvReply →
      turn.Rereads → turn.arrival = .shows more →
      Decides stream (arrived stream session more) session
        (httpStep conf session turn)

/-- The buffer may show a code behind a head which has none. -/
def Overrun (stream : List UInt8) : Prop :=
  ∃ size shown,
    HeadEnds stream size ∧ size ≤ shown ∧ shown ≤ headMax ∧
      shown ≤ stream.length ∧
      scanResponse (stream.take size) ≠ some 200 ∧
      scanResponse (cstr (stream.take shown)) = some 200

/-! ## The invariant -/

/-- How much of the stream was read in which phase. -/
def Aligned (stream : List UInt8) (session : HttpSession) : Prop :=
  match session.client.phase with
  | .sendRequest => stream = session.unread
  | .recvReply =>
      stream = session.client.hsbuff ++ session.unread ∧
        headFinder.ends session.client.hsbuff = none ∧
        session.client.hsbuff.length < headMax
  | .forwarding =>
      ∃ size shown,
        HeadEnds stream size ∧ size ≤ shown ∧ shown ≤ headMax ∧
          shown ≤ stream.length ∧
          scanResponse (cstr (stream.take shown)) = some 200 ∧
          session.unread = stream.drop size
  | .failed => ∀ size, ¬ Grants stream size

theorem looked_isPrefix (turn : SocketTurn) (session : HttpSession) :
    looked turn session <+: session.unread :=
  take_shown_prefix _ _ _

theorem looked_append (turn : SocketTurn) (session : HttpSession) :
    looked turn session ++
        session.unread.drop (looked turn session).length =
      session.unread := by
  rcases looked_isPrefix turn session with ⟨rest, whole⟩
  rw [← whole, List.drop_left' rfl, whole]

section Reading

variable {conf : Nspconf} {stream : List UInt8}
  {session : HttpSession} {turn : SocketTurn}

/-- What the client sees while it waits is a prefix of the stream. -/
theorem seen_eq
    (whole : stream = session.client.hsbuff ++ session.unread) :
    session.client.hsbuff ++ looked turn session =
      stream.take
        (session.client.hsbuff ++ looked turn session).length := by
  apply List.prefix_iff_eq_take.mp
  rw [whole]
  exact (List.prefix_append_right_inj _).mpr (looked_isPrefix turn session)

/-- The buffer is never fuller than the longest head. -/
theorem length_seen_le
    (phase : session.client.phase = .recvReply)
    (room : session.client.hsbuff.length < headMax) :
    (session.client.hsbuff ++ looked turn session).length ≤ headMax := by
  simp only [headMax] at room ⊢
  simp only [List.length_append, looked, List.length_take, requested,
    phase]
  omega

/-- The client has read the head and nothing behind it. -/
theorem unread_of_found
    (whole : stream = session.client.hsbuff ++ session.unread)
    (incomplete : headFinder.ends session.client.hsbuff = none)
    {size : Nat}
    (found :
      headFinder.ends (session.client.hsbuff ++ looked turn session) =
        some size) :
    session.unread.drop (consumed turn session) = stream.drop size := by
  have length := headFinder.taken_of_found incomplete found
  rw [← responseLength_eq] at length
  rw [whole, ← length, List.drop_length_add_append]
  rfl

/-- A code of the head is seen in every buffer which shows the head. -/
theorem scanResponse_shown
    {size shown : Nat} {code : Int} (head : HeadEnds stream size)
    (longer : size ≤ shown)
    (scanned : scanResponse (stream.take size) = some code) :
    scanResponse (cstr (stream.take shown)) = some code := by
  have front : stream.take size <+: cstr (stream.take shown) := by
    exact prefix_cstr (List.take_prefix_take_left longer) head.nulFree
  rcases front with ⟨more, whole⟩
  rw [← whole]
  exact scanResponse_append head.ends scanned more

/-- The seen bytes show the head of the stream. -/
theorem headEnds_seen
    (whole : stream = session.client.hsbuff ++ session.unread)
    {size : Nat}
    (found :
      headFinder.ends (session.client.hsbuff ++ looked turn session) =
        some size) :
    HeadEnds stream size := by
  refine (headEnds_iff.mp found).of_isPrefix ?_
  rw [seen_eq whole]
  exact List.take_prefix _ _

/-- Without a head among the seen bytes a head of the stream is longer. -/
theorem length_seen_lt
    (whole : stream = session.client.hsbuff ++ session.unread)
    (missing :
      headFinder.ends (session.client.hsbuff ++ looked turn session) =
        none)
    {size : Nat} (head : HeadEnds stream size) :
    (session.client.hsbuff ++ looked turn session).length < size := by
  refine headFinder.length_lt_of_incomplete ?_ (headEnds_iff.mpr head)
    missing
  rw [seen_eq whole]
  exact List.take_prefix _ _

end Reading

section Steps

variable {conf : Nspconf} {stream : List UInt8}
  {session after : HttpSession} {turn : SocketTurn}

theorem Aligned.reads
    (aligned : Aligned stream session)
    (phase : session.client.phase = .recvReply)
    (received :
      Received session.client after.client
        (session.client.hsbuff ++ looked turn session))
    (unread : after.unread = session.unread.drop (consumed turn session)) :
    Aligned stream after := by
  simp only [Aligned, phase] at aligned
  rcases aligned with ⟨whole, incomplete, room⟩
  have verdict := received.phase
  have short : (session.client.hsbuff ++ looked turn session).length ≤ _ :=
    length_seen_le phase room
  simp only [HttpSteps.verdict] at verdict
  split at verdict
  · next missing =>
      split at verdict
      · next full =>
          simp only [Aligned, verdict]
          rintro size ⟨head, within, _⟩
          have longer := length_seen_lt whole missing head
          rw [full] at longer
          exact absurd within (Nat.not_le.mpr longer)
      · next free =>
          have kept := received.waiting verdict
          simp only [Aligned, verdict, kept, unread]
          refine ⟨?_, missing, Nat.lt_of_le_of_ne short free⟩
          have all : consumed turn session = (looked turn session).length := by
            simp only [consumed, responseLength, responseEnd, missing]
          rw [all, List.append_assoc, looked_append]
          exact whole
  · next size found =>
      have head := headEnds_seen whole found
      have contained := (headEnds_iff.mp found).inside
      split at verdict
      · next code =>
          simp only [Aligned, verdict]
          refine
            ⟨size, (session.client.hsbuff ++ looked turn session).length,
              head, contained, short, ?_, ?_, ?_⟩
          · rw [whole, List.length_append, List.length_append]
            exact Nat.add_le_add_left
              (looked_isPrefix turn session).length_le _
          · rw [← seen_eq whole]
            exact code
          · rw [unread]
            exact unread_of_found whole incomplete found
      · next other =>
          simp only [Aligned, verdict]
          rintro size' ⟨head', _, code⟩
          have same := head.toEndsAt.unique head'.toEndsAt
          subst same
          have seen := scanResponse_shown head contained code
          rw [← seen_eq whole] at seen
          exact other seen

theorem aligned_takes
    (takes : Takes conf session turn after) (sound : turn.Sound)
    (aligned : Aligned stream session) :
    Aligned stream after := by
  cases takes with
  | told finished =>
      exact aligned
  | stalls sending send =>
      simp only [Aligned, sending] at aligned ⊢
      exact aligned
  | breaks sending send broken =>
      exact absurd (sound.1 _ send) broken
  | writes sending send left =>
      simp only [Aligned, sending] at aligned ⊢
      exact aligned
  | wrote sending send left =>
      simp only [Aligned, sending] at aligned
      simp only [Aligned]
      refine ⟨aligned, rfl, ?_⟩
      simp only [headMax, httpHsBuff, List.length_nil]
      omega
  | idles receiving arrival =>
      exact aligned
  | loses receiving arrival =>
      simp only [Aligned, receiving] at aligned
      rcases aligned with ⟨whole, incomplete, room⟩
      rcases arrival with ⟨errno, _, fails⟩ | ⟨⟨more, shows⟩, nothing⟩
      · exact absurd fails (sound.2 errno)
      · have ended : session.unread = [] := by
          by_contra some_byte
          refine take_shown_ne_nil shows some_byte ?_ nothing
          simp only [requested, receiving, headMax] at room ⊢
          omega
        rw [ended, List.append_nil] at whole
        simp only [Aligned]
        rintro size ⟨head, _, _⟩
        have found := headEnds_iff.mpr head
        rw [whole] at found
        rw [headFinder] at incomplete
        simp only [found] at incomplete
        cases incomplete
  | reads receiving arrived received =>
      exact aligned.reads receiving received rfl

end Steps

section Decisions

variable {conf : Nspconf} {stream : List UInt8} {session : HttpSession}
  {turn : SocketTurn} {more : Nat}

/-- All bytes which have arrived are seen, up to the longest head. -/
theorem length_seen
    (whole : stream = session.client.hsbuff ++ session.unread)
    (phase : session.client.phase = .recvReply)
    (room : session.client.hsbuff.length < headMax)
    (shows : turn.arrival = .shows more) :
    (session.client.hsbuff ++ looked turn session).length =
      min (arrived stream session more) headMax := by
  have total := congrArg List.length whole
  rw [List.length_append] at total
  simp only [headMax] at room
  simp only [List.length_append, looked, shows, Arrival.shown,
    List.length_take, requested, phase, arrived, headMax]
  omega

theorem decides_reads
    (calm : ¬ Overrun stream)
    (whole : stream = session.client.hsbuff ++ session.unread)
    (phase : session.client.phase = .recvReply)
    (room : session.client.hsbuff.length < headMax)
    (shows : turn.arrival = .shows more)
    (some_byte : looked turn session ≠ [])
    {after : HttpSession}
    (received :
      Received session.client after.client
        (session.client.hsbuff ++ looked turn session))
    (unread : after.unread = session.unread.drop (consumed turn session)) :
    Decides stream (arrived stream session more) session after := by
  have length := length_seen whole phase room shows
  have seen :
      session.client.hsbuff ++ looked turn session = stream.take _ :=
    seen_eq whole
  have short : (session.client.hsbuff ++ looked turn session).length ≤ _ :=
    length_seen_le phase room
  have bounded :
      (session.client.hsbuff ++ looked turn session).length ≤
        stream.length := by
    rw [length]
    exact Nat.le_trans (Nat.min_le_left _ _) (Nat.min_le_right _ _)
  have found :
      ∀ size, HeadEnds stream size → size ≤ headMax →
        size ≤ arrived stream session more →
        size ≤ (session.client.hsbuff ++ looked turn session).length ∧
          strstrCrlf2
              (cstr (session.client.hsbuff ++ looked turn session)) =
            some size := by
    intro size head within here
    have contained :
        size ≤
          (session.client.hsbuff ++ looked turn session).length := by
      rw [length]
      exact Nat.le_min.mpr ⟨here, within⟩
    refine ⟨contained, headEnds_iff.mpr (head.of_contained ?_ contained)⟩
    rw [seen]
    exact List.take_prefix _ _
  constructor
  · intro size grants here
    rcases found size grants.head grants.short here with
      ⟨contained, located⟩
    have code := scanResponse_shown grants.head contained grants.code
    rw [← seen] at code
    rw [received.phase]
    simp only [verdict, located, code, if_true]
  · intro size head within other here
    rcases found size head within here with ⟨contained, located⟩
    rw [received.phase]
    simp only [verdict, located]
    split
    · next code =>
        refine absurd ?_ calm
        rw [seen] at code
        exact ⟨size, _, head, contained, short, bounded, other, code⟩
    · rfl
  · intro endless full
    have enough : headMax ≤ arrived stream session more := by
      rcases full with all | ended
      · exact all
      · have front := looked_isPrefix turn session
        rw [ended, List.prefix_nil] at front
        exact absurd front some_byte
    rw [Nat.min_eq_right enough] at length
    rw [received.phase]
    simp only [verdict]
    split
    · exact if_pos length
    · next size located =>
        have within := (headEnds_iff.mp located).inside
        have longer := endless size (headEnds_seen whole located)
        rw [length] at within
        exact absurd within (Nat.not_le.mpr longer)
  · intro waiting
    have missing :
        strstrCrlf2
            (cstr (session.client.hsbuff ++ looked turn session)) =
          none := by
      have judged := received.phase
      rw [waiting] at judged
      simp only [verdict] at judged
      split at judged
      · next missing => exact missing
      · split at judged
        · cases judged
        · cases judged
    have all : consumed turn session = (looked turn session).length := by
      simp only [consumed, responseLength, responseEnd, missing]
    have positive := List.length_pos_iff.mpr some_byte
    have within := (looked_isPrefix turn session).length_le
    rw [unread, all, List.length_drop]
    omega

/-- The stream has ended before the end of the head. -/
theorem decides_ended
    (whole : stream = session.client.hsbuff ++ session.unread)
    (incomplete : headFinder.ends session.client.hsbuff = none)
    (ended : session.unread = []) {after : HttpSession}
    (failed : after.client.phase = .failed) (reached : Nat) :
    Decides stream reached session after := by
  have headless : ∀ size, ¬ HeadEnds stream size := by
    intro size head
    have found := headEnds_iff.mpr head
    rw [whole, ended, List.append_nil] at found
    rw [headFinder] at incomplete
    simp only [found] at incomplete
    cases incomplete
  constructor
  · intro size grants _
    exact absurd grants.head (headless size)
  · intro size head
    exact absurd head (headless size)
  · intro _ _
    exact failed
  · intro waiting
    rw [failed] at waiting
    cases waiting

theorem exact_of_aligned
    (calm : ¬ Overrun stream) (aligned : Aligned stream session) :
    Exact conf stream session := by
  constructor
  · intro phase
    simp only [Aligned, phase] at aligned
    rcases aligned with
      ⟨size, shown, head, contained, short, bounded, code, unread⟩
    refine ⟨size, ⟨head, Nat.le_trans contained short, ?_⟩, unread⟩
    by_contra other
    exact calm
      ⟨size, shown, head, contained, short, bounded, other, code⟩
  · intro phase
    simpa only [Aligned, phase] using aligned
  · intro turn more phase rereads shows
    simp only [Aligned, phase] at aligned
    rcases aligned with ⟨whole, incomplete, room⟩
    have takes := takes_httpStep conf session rereads
    generalize httpStep conf session turn = after at takes
    cases takes with
    | told finished =>
        rw [phase] at finished
        exact absurd rfl finished
    | stalls sending | breaks sending | writes sending | wrote sending =>
        rw [phase] at sending
        cases sending
    | idles receiving arrival =>
        rw [shows] at arrival
        rcases arrival with impossible | impossible
        · cases impossible
        · cases impossible
    | loses receiving arrival =>
        rcases arrival with ⟨errno, _, fails⟩ | ⟨_, nothing⟩
        · rw [shows] at fails
          cases fails
        · refine decides_ended whole incomplete ?_ rfl _
          by_contra some_byte
          refine take_shown_ne_nil shows some_byte ?_ nothing
          simp only [requested, phase, headMax] at room ⊢
          omega
    | reads receiving some_byte received =>
        exact decides_reads calm whole phase room shows some_byte
          received rfl

end Decisions

theorem aligned_begins
    {addr : Text} {port : UInt16} {stream : List UInt8}
    {session : HttpSession} (begins : Begins addr port stream session) :
    Aligned stream session := by
  rcases begins.client with ⟨_, events, same⟩
  simp only [Aligned, same]
  exact begins.2.1.symm

theorem aligned_of_reachable
    {conf : Nspconf} {addr : Text} {port : UInt16}
    {stream : List UInt8} {session : HttpSession}
    (reachable :
      (soundSystem conf addr port stream).Reachable session) :
    Aligned stream session := by
  apply reachable.invariant
  · rintro source ⟨begins, _⟩
    exact aligned_begins begins
  · rintro source turn target aligned ⟨rereads, sound⟩ handled
    cases handled
    exact aligned_takes (takes_httpStep conf source rereads) sound aligned

/-! ## The code behind the head -/

/-- A socket which accepts and shows so many bytes and one more. -/
def openTurn (more : Nat) : SocketTurn where
  events := epollin ||| epollout
  send := .accept more
  arrival := .shows more
  again := .shows more
  epoll := true

theorem rereads_openTurn (more : Nat) : (openTurn more).Rereads :=
  SocketTurn.rereads_of_same rfl

theorem sound_openTurn (more : Nat) : (openTurn more).Sound := by
  constructor
  · intro errno impossible
    cases impossible
  · intro errno impossible
    cases impossible

/-- A session in which the request was sent at once. -/
theorem exists_waiting
    (conf : Nspconf) {addr : Text} (port : UInt16)
    (stream : List UInt8) (short : addr.length ≤ servnameMaxlen) :
    ∃ session,
      (soundSystem conf addr port stream).Reachable session ∧
        session.client.phase = .recvReply ∧
        session.client.hsbuff = [] ∧ session.unread = stream := by
  have made :
      httpTcpCreate addr port true true =
        some
          { events := epollout
            addr := addr
            port := port
            phase := .sendRequest
            hsbuff := [] } := by
    rw [httpTcpCreate, if_neg (Nat.not_lt.mpr short)]
    rfl
  let first : HttpSession :=
    { client :=
        { events := epollout
          addr := addr
          port := port
          phase := .sendRequest
          hsbuff := [] }
      unread := stream
      journal := [] }
  have reachable :
      (soundSystem conf addr port stream).Reachable first :=
    .start ⟨⟨⟨true, made⟩, rfl, rfl⟩, trivial⟩
  let turn := openTurn (httpRequest conf first.client).length
  have rereads : turn.Rereads := rereads_openTurn _
  have takes := takes_httpStep conf first rereads
  have next :
      (soundSystem conf addr port stream).Reachable
        (httpStep conf first turn) :=
    .next reachable ⟨rereads, sound_openTurn _⟩ rfl
  refine ⟨_, next, ?_⟩
  generalize httpStep conf first turn = after at takes
  cases takes with
  | told finished =>
      exact absurd rfl finished
  | stalls sending send =>
      cases send
  | breaks sending send broken =>
      cases send
  | writes sending send left =>
      cases send
      refine absurd ?_ left
      apply List.drop_eq_nil_of_le
      exact Nat.le_succ _
  | wrote sending send left =>
      exact ⟨rfl, rfl, rfl⟩
  | idles receiving arrival =>
      cases receiving
  | loses receiving arrival =>
      cases receiving
  | reads receiving some_byte received =>
      cases receiving

/-- When the kernel shows the code behind the head, the client takes it. -/
theorem overrun_not_exact
    (conf : Nspconf) {addr : Text} (port : UInt16)
    {stream : List UInt8} (short : addr.length ≤ servnameMaxlen)
    (overrun : Overrun stream) :
    ∃ session,
      (soundSystem conf addr port stream).Reachable session ∧
        ¬ Exact conf stream session := by
  rcases overrun with
    ⟨size, shown, head, contained, within, bounded, other, code⟩
  rcases exists_waiting conf port stream short with
    ⟨session, reachable, phase, empty, unread⟩
  have four := head.toEndsAt.four_le
  have all : shown - 1 + 1 = shown := by omega
  have looks :
      session.client.hsbuff ++ looked (openTurn (shown - 1)) session =
        stream.take shown := by
    simp only [looked, openTurn, Arrival.shown, requested, phase, empty,
      unread, all, List.nil_append, List.length_nil, Nat.sub_zero]
    rw [List.take_take]
    exact congrArg (fun count => stream.take count)
      (Nat.min_eq_right within)
  have some_byte : looked (openTurn (shown - 1)) session ≠ [] := by
    rw [empty, List.nil_append] at looks
    rw [looks, Ne, List.take_eq_nil_iff, not_or]
    refine ⟨by omega, ?_⟩
    rintro rfl
    rw [List.length_nil] at bounded
    omega
  have next :
      (soundSystem conf addr port stream).Reachable
        (httpStep conf session (openTurn (shown - 1))) :=
    .next reachable ⟨rereads_openTurn _, sound_openTurn _⟩ rfl
  refine ⟨_, next, ?_⟩
  intro exact_
  have takes :=
    takes_httpStep conf session (rereads_openTurn (shown - 1))
  have forwarding :
      (httpStep conf session
        (openTurn (shown - 1))).client.phase = .forwarding := by
    generalize httpStep conf session (openTurn (shown - 1)) = after
      at takes
    cases takes with
    | told finished =>
        rw [phase] at finished
        exact absurd rfl finished
    | stalls sending | breaks sending | writes sending | wrote sending =>
        rw [phase] at sending
        cases sending
    | idles receiving arrival =>
        rcases arrival with impossible | impossible
        · cases impossible
        · cases impossible
    | loses receiving arrival =>
        rcases arrival with ⟨_, _, impossible⟩ | ⟨_, nothing⟩
        · cases impossible
        · exact absurd nothing some_byte
    | reads receiving _ received =>
        have located :
            strstrCrlf2 (cstr (stream.take shown)) = some size := by
          apply headEnds_iff.mpr
          refine head.of_contained (List.take_prefix _ _) ?_
          rw [List.length_take]
          omega
        rw [received.phase, looks]
        simp only [verdict, located, code, if_true]
  rcases exact_.forwards forwarding with ⟨size', grants, _⟩
  have same := head.toEndsAt.unique grants.head.toEndsAt
  subst same
  exact other grants.code

/--
The handshake reads the head of the response and goes by it, in all sessions
and however the stream arrives, unless a code may be read behind a head which
does not grant the request.
-/
theorem http_handshake_exact_iff
    (conf : Nspconf) {addr : Text} (port : UInt16)
    (stream : List UInt8) (short : addr.length ≤ servnameMaxlen) :
    (∀ session,
      (soundSystem conf addr port stream).Reachable session →
      Exact conf stream session) ↔
    ¬ Overrun stream := by
  constructor
  · intro claimed overrun
    rcases overrun_not_exact conf port short overrun with
      ⟨session, reachable, inexact⟩
    exact inexact (claimed session reachable)
  · intro calm session reachable
    exact exact_of_aligned calm (aligned_of_reachable reachable)

/-- A configuration without credentials. -/
def sampleConf : Nspconf where
  proxysrv := ascii "127.0.0.1"
  proxyport := 8080
  proxytype := .http
  dnssrv := ascii "1.1.1.1"
  dnsport := 53
  dnstype := .off
  proxyuser := []
  proxypass := []
  ipv6 := false
  directCidrs := []
  directCidrCapacity := 0
  directCidrMode := .whitelist

/-- A response with data behind its head. -/
def grantedStream : List UInt8 :=
  ascii "HTTP/1.1 200 OK" ++ crlf2 ++ ascii "SSH-2.0"

theorem http_handshake_exact_granted :
    (∃ size, Grants grantedStream size) ∧
      ∀ session,
        (soundSystem sampleConf (ascii "example.org") 80
          grantedStream).Reachable session →
        Exact sampleConf grantedStream session := by
  have head : HeadEnds grantedStream 19 := headEnds_iff.mp (by decide)
  have code : scanResponse (grantedStream.take 19) = some 200 := by decide
  refine ⟨⟨19, head, by decide, code⟩, ?_⟩
  refine (http_handshake_exact_iff sampleConf 80 grantedStream
    (by decide)).mpr ?_
  rintro ⟨size, shown, other, _, _, _, refused, _⟩
  have same := head.toEndsAt.unique other.toEndsAt
  subst same
  exact refused code

/-- A head without a code, and data which looks like one. -/
def overrunStream : List UInt8 :=
  ascii "HTTP/1.1 " ++ crlf2 ++ ascii "200"

theorem http_code_behind_head :
    ¬ ∀ session,
      (soundSystem sampleConf (ascii "example.org") 80
        overrunStream).Reachable session →
      Exact sampleConf overrunStream session := by
  intro claimed
  have overrun : Overrun overrunStream := by
    refine ⟨13, 16, headEnds_iff.mp (by decide), ?_⟩
    decide
  rcases overrun_not_exact sampleConf 80
      (show (ascii "example.org").length ≤ servnameMaxlen by decide)
      overrun with
    ⟨session, reachable, inexact⟩
  exact inexact (claimed session reachable)

end Nsproxy.Handshake.HttpExact
