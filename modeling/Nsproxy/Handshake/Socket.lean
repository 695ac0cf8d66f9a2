import Mathlib.Tactic.Common
import Nsproxy.Skutils
import Nsproxy.Socks

/-!
# The socket of a handshake

The SOCKS5 and the HTTP client are driven by the same kind of socket.  The
server is the stream of the bytes it sends.  `recv` hands over a prefix of the
bytes which have not been read, and a `recv` with `MSG_PEEK` only shows it.
`Rereads` is what the documentation of `recv` says of the call behind such a
look: the bytes which were shown are still there.  No other assumption is made
about the second call.

A session is a client with its socket.  What the client assembles, what the
kernel accepts of it and what is read is written down in a journal.
-/

namespace Nsproxy.Handshake.Socket

open Nsproxy.Skutils
open Nsproxy.Socks

/-- What the next `recv` finds. -/
inductive Arrival where
  /-- Nothing has arrived: `EAGAIN`. -/
  | waits
  /-- So many bytes and one more have arrived, or the stream has ended. -/
  | shows (more : Nat)
  | fails (errno : Errno)
deriving DecidableEq, Repr

/-- The answer to the `recv`, while these bytes are unread. -/
def Arrival.answer (unread : List UInt8) : Arrival → RecvAnswer
  | .waits => .err .eagain
  | .shows more => .data (unread.take (more + 1))
  | .fails errno => .err errno

/-- The bytes which the `recv` finds. -/
def Arrival.shown (unread : List UInt8) : Arrival → List UInt8
  | .shows more => unread.take (more + 1)
  | _ => []

section Shown

variable {arrival : Arrival} {unread : List UInt8} {limit : Nat}

/-- A `recv` finds the first bytes which have not been read. -/
theorem take_shown_prefix (arrival : Arrival) (unread : List UInt8)
    (limit : Nat) : (arrival.shown unread).take limit <+: unread := by
  refine (List.take_prefix _ _).trans ?_
  cases arrival with
  | shows more => exact List.take_prefix _ _
  | _ => exact List.nil_prefix

theorem take_shown_ne_nil
    {more : Nat} (shows : arrival = .shows more)
    (some_byte : unread ≠ []) (room : 0 < limit) :
    (arrival.shown unread).take limit ≠ [] := by
  intro nothing
  rw [shows, Arrival.shown, List.take_eq_nil_iff, List.take_eq_nil_iff]
    at nothing
  rcases nothing with zero | zero | empty
  · exact absurd zero (Nat.ne_of_gt room)
  · exact absurd zero (Nat.succ_ne_zero more)
  · exact some_byte empty

theorem shows_of_take_shown
    (arrived : (arrival.shown unread).take limit ≠ []) :
    ∃ more, arrival = .shows more ∧
      ((arrival.shown unread).take limit).length ≤ more + 1 := by
  cases arrival with
  | waits =>
      exact absurd List.take_nil arrived
  | fails errno =>
      exact absurd List.take_nil arrived
  | shows more =>
      refine ⟨more, rfl, ?_⟩
      simp only [Arrival.shown, List.length_take]
      omega

end Shown

/-- An event of the socket, with what its calls find. -/
structure SocketTurn where
  events : EventMask
  send : SendAnswer
  arrival : Arrival
  /-- What the second `recv` finds, while nothing more was read. -/
  again : Arrival
  epoll : Bool
deriving DecidableEq, Repr

/-- The answers to the calls. -/
def SocketTurn.answers (turn : SocketTurn) (unread : List UInt8) :
    HandshakeAnswers where
  send := turn.send
  recv := turn.arrival.answer unread
  recvAgain := turn.again.answer unread
  epoll := turn.epoll

/--
The bytes which a look has shown are found again by the next `recv`; more may
have arrived behind them.
-/
def SocketTurn.Rereads (turn : SocketTurn) : Prop :=
  ∀ more, turn.arrival = .shows more →
    ∃ again, turn.again = .shows again ∧ more ≤ again

/-- The second `recv` finds what the first one has shown. -/
theorem SocketTurn.Rereads.answer
    {turn : SocketTurn} (rereads : turn.Rereads) {more : Nat}
    (shows : turn.arrival = .shows more) (unread : List UInt8) :
    ∃ bytes, turn.again.answer unread = .data bytes ∧
      turn.arrival.shown unread <+: bytes := by
  rcases rereads more shows with ⟨again, found, enough⟩
  refine ⟨unread.take (again + 1), ?_, ?_⟩
  · rw [found, Arrival.answer]
  · rw [shows, Arrival.shown]
    exact List.take_prefix_take_left (Nat.succ_le_succ enough)

/-- A second call may find what the first one has found. -/
theorem SocketTurn.rereads_of_same
    {turn : SocketTurn} (same : turn.again = turn.arrival) :
    turn.Rereads := by
  intro more shows
  exact ⟨more, same.trans shows, Nat.le_refl more⟩

def showsAgain (turn : SocketTurn) : Bool :=
  match turn.arrival, turn.again with
  | .shows more, .shows again => decide (more ≤ again)
  | .shows _, _ => false
  | _, _ => true

theorem showsAgain_iff (turn : SocketTurn) :
    showsAgain turn = true ↔ turn.Rereads := by
  rcases turn with ⟨events, send, arrival, again, epoll⟩
  cases arrival with
  | waits => simp [showsAgain, SocketTurn.Rereads]
  | fails errno => simp [showsAgain, SocketTurn.Rereads]
  | shows more =>
      cases again <;> simp [showsAgain, SocketTurn.Rereads]

instance (turn : SocketTurn) : Decidable turn.Rereads :=
  decidable_of_iff _ (showsAgain_iff turn)

/-- No call fails with another error than `EAGAIN`. -/
def SocketTurn.Sound (turn : SocketTurn) : Prop :=
  (∀ errno, turn.send = .err errno → errno = .eagain) ∧
    ∀ errno, turn.arrival ≠ .fails errno

def isSound (turn : SocketTurn) : Bool :=
  (match turn.send with
    | .err errno => decide (errno = .eagain)
    | .accept _ => true) &&
    match turn.arrival with
    | .fails _ => false
    | _ => true

theorem isSound_iff (turn : SocketTurn) :
    isSound turn = true ↔ turn.Sound := by
  rcases turn with ⟨events, send, arrival, again, epoll⟩
  cases send with
  | accept more =>
      cases arrival <;> simp [isSound, SocketTurn.Sound]
  | err errno =>
      cases arrival <;> simp [isSound, SocketTurn.Sound]

instance (turn : SocketTurn) : Decidable turn.Sound :=
  decidable_of_iff _ (isSound_iff turn)

/-! ## The journal -/

/-- What a client does in a phase. -/
inductive Entry (Phase : Type) where
  /-- It assembles a message. -/
  | assembled (phase : Phase) (message : List UInt8)
  /-- The kernel accepts these bytes. -/
  | accepted (phase : Phase) (bytes : List UInt8)
  /-- It reads these bytes. -/
  | consumed (phase : Phase) (bytes : List UInt8)
deriving DecidableEq, Repr

/-- A client, the bytes it has not read, and its journal. -/
structure Session (Client Phase : Type) where
  client : Client
  unread : List UInt8
  journal : List (Entry Phase)
deriving DecidableEq

/-- The bytes which a `send` is given. -/
def offered (message buffer : List UInt8) : List UInt8 :=
  if buffer = [] then message else buffer

theorem offered_ne_nil
    {message : List UInt8} (some_byte : message ≠ [])
    (buffer : List UInt8) :
    offered message buffer ≠ [] := by
  unfold offered
  split
  · exact some_byte
  · next left => exact left

/-- A message which was assembled is the one which is offered next. -/
theorem offered_offered (message buffer : List UInt8) :
    offered message (offered message buffer) = offered message buffer := by
  by_cases empty : buffer = []
  · simp [offered, empty]
  · simp [offered, empty]

theorem offered_of_ne_nil
    {message buffer : List UInt8} (left : buffer ≠ []) :
    offered message buffer = buffer := by
  rw [offered, if_neg left]

/-- The entries of a call which sends the message of a phase. -/
def sendEntries
    {Phase : Type} (phase : Phase) (message buffer : List UInt8) :
    SendAnswer → List (Entry Phase)
  | .accept more =>
      (if buffer = [] then [.assembled phase message] else []) ++
        [.accepted phase ((offered message buffer).take (more + 1))]
  | .err _ => if buffer = [] then [.assembled phase message] else []

/-- The entries of a call which reads. -/
def readEntries {Phase : Type} (phase : Phase) (bytes : List UInt8) :
    List (Entry Phase) :=
  if bytes = [] then [] else [.consumed phase bytes]

section Journal

variable {Phase : Type} [DecidableEq Phase]

/-- The messages assembled in a phase. -/
def assembledIn (phase : Phase) : List (Entry Phase) → List (List UInt8)
  | [] => []
  | .assembled other message :: rest =>
      if other = phase then message :: assembledIn phase rest
      else assembledIn phase rest
  | _ :: rest => assembledIn phase rest

/-- The bytes which the kernel accepted in a phase. -/
def acceptedIn (phase : Phase) : List (Entry Phase) → List UInt8
  | [] => []
  | .accepted other bytes :: rest =>
      if other = phase then bytes ++ acceptedIn phase rest
      else acceptedIn phase rest
  | _ :: rest => acceptedIn phase rest

end Journal

end Nsproxy.Handshake.Socket
