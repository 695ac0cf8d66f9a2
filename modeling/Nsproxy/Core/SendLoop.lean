import Mathlib.Tactic.Common
import Nsproxy.Lib.Transition
import Nsproxy.Core.TcpOutcomes

/-!
# Whether the send loop ends

The loop of `tcp_proxy_output` runs while the receive queue holds a buffer,
offers the first one to the proxy and frees as many bytes as the proxy took.
A buffer without bytes is offered like any other; the proxy takes its zero
bytes, and `pbuf_free_header` with a size of zero returns the queue as it was.

The first part is what lwIP does to a segment that arrived in several
buffers: `tcp_input` hides the header and `tcp_receive` hides what was
received before, and both leave emptied buffers in the chain.  The second
part is the loop as a transition system whose events are the results of
`proxy_send`.  The last part relates it to the loop body of the handlers.
-/

namespace Nsproxy.Core.SendLoop

open Nsproxy.Lib.Handlers
open Nsproxy.Lib.Transition
open Nsproxy.Lwip.Buffers
open Nsproxy.Lwip.Tcp
open Nsproxy.Skutils
open Nsproxy.Core.Memory
open Nsproxy.Core.TcpHandlers
open Nsproxy.Core.TcpOutcomes

/-! ## The chains which lwIP hands over -/

/-- The length of a TCP header without options. -/
def tcpHlen : Nat := 20

/--
The first buffer after `tcp_input` moved past a header whose options end in
the next one: no bytes, and `tot_len` without the options in the next buffer.
-/
def emptiedBy (p : Pbuf) (opt2len : Nat) : Pbuf :=
  let options := removeHeader p tcpHlen
  let emptied := removeHeader options options.len
  { emptied with totLen := (emptied.totLen + 65536 - opt2len) % 65536 }

/--
The part of `tcp_input` which moves past a header of the given length: the
chain it goes on with, or nothing where the segment is dropped.
-/
def tcpInputPayload (hdrlenBytes : Nat) : List Pbuf → Option (List Pbuf)
  | [] => none
  | p :: others =>
      if p.len < tcpHlen then
        none
      else if hdrlenBytes < tcpHlen ∨ p.totLen < hdrlenBytes then
        none
      else if hdrlenBytes ≤ p.len then
        some (removeHeader p hdrlenBytes :: others)
      else
        match others with
        | [] => none
        | next :: rest =>
            let tcphdrOptlen := hdrlenBytes - tcpHlen
            let tcphdrOpt1len := p.len - tcpHlen
            let opt2len := tcphdrOptlen - tcphdrOpt1len
            if next.len < opt2len then
              none
            else
              some (emptiedBy p opt2len :: removeHeader next opt2len :: rest)

/-- The loop of `tcp_receive` which hides the bytes received before. -/
def tcpReceiveTrim (newTotLen : Nat) : List Pbuf → Nat → List Pbuf
  | [], _ => []
  | p :: rest, off =>
      if p.len < off then
        { payload := [], totLen := newTotLen, len_lt := by decide } ::
          tcpReceiveTrim newTotLen rest (off - p.len)
      else
        removeHeader p off :: rest

theorem emptiedBy_payload (p : Pbuf) (opt2len : Nat) :
    (emptiedBy p opt2len).payload = [] := by
  simp only [emptiedBy, removeHeader, Pbuf.len]
  exact List.drop_length

theorem removeHeader_payload_eq_nil_iff (pbuf : Pbuf) (size : Nat) :
    (removeHeader pbuf size).payload = [] ↔ pbuf.len ≤ size := by
  simp [removeHeader, Pbuf.len]

/--
The first buffer is left without bytes exactly if the header with its options
reaches its end.
-/
theorem tcpInputPayload_head
    {hdrlenBytes : Nat} {p first : Pbuf} {others rest : List Pbuf}
    (kept :
      tcpInputPayload hdrlenBytes (p :: others) = some (first :: rest)) :
    first.payload = [] ↔ p.len ≤ hdrlenBytes := by
  simp only [tcpInputPayload] at kept
  split at kept
  · cases kept
  · split at kept
    · cases kept
    · split at kept
      · simp only [Option.some.injEq, List.cons.injEq] at kept
        rw [← kept.1]
        exact removeHeader_payload_eq_nil_iff p hdrlenBytes
      · next beyond =>
          split at kept
          · cases kept
          · split at kept
            · cases kept
            · simp only [Option.some.injEq, List.cons.injEq] at kept
              rw [← kept.1]
              exact iff_of_true (emptiedBy_payload p _)
                (Nat.le_of_not_le beyond)

/-- The same for the bytes which were received before. -/
theorem tcpReceiveTrim_head
    {newTotLen off : Nat} {p first : Pbuf} {others rest : List Pbuf}
    (kept :
      tcpReceiveTrim newTotLen (p :: others) off = first :: rest) :
    first.payload = [] ↔ p.len ≤ off := by
  simp only [tcpReceiveTrim] at kept
  split at kept
  · next beyond =>
      simp only [List.cons.injEq] at kept
      rw [← kept.1]
      exact iff_of_true rfl (Nat.le_of_lt beyond)
  · simp only [List.cons.injEq] at kept
    rw [← kept.1]
    exact removeHeader_payload_eq_nil_iff p off

/-! ## The loop -/

/-- The results which `proxy_send` may have for a piece of the given size. -/
def mayReturn (size : Nat) : Except Errno Nat → Prop
  | .ok nsent => nsent ≤ size ∧ (0 < size → 0 < nsent)
  | .error _ => 0 < size

/-- Where the loop stands. -/
inductive LoopState where
  | sending (rcvq : PbufChain)
  | stalled (rcvq : PbufChain)
  | aborted
deriving DecidableEq

/-- The queue with which the test of the loop succeeds. -/
def LoopState.queued : LoopState → Option PbufChain
  | .sending rcvq => if rcvq.isNull then none else some rcvq
  | _ => none

/-- The body of the loop, for a queue and a result of `proxy_send`. -/
def sendRound (rcvq : PbufChain) : Except Errno Nat → LoopState
  | .error errno => if errno = .eagain then .stalled rcvq else .aborted
  | .ok nsent => .sending (rcvq.pbufFreeHeader nsent)

/-- The loop with the results of `proxy_send` as its events. -/
def sendLoop : System Unit LoopState (Except Errno Nat) where
  initial state := ∃ rcvq, state = .sending rcvq
  enabled state result :=
    ∃ rcvq, state.queued = some rcvq ∧
      mayReturn (firstPayload rcvq).length result
  step state result :=
    match state with
    | .sending rcvq => .ok (sendRound rcvq result)
    | _ => .error ()

/-- The loop is left. -/
def Left (state : LoopState) : Prop := state.queued = none

theorem sendRound_ok (rcvq : PbufChain) (nsent : Nat) :
    sendRound rcvq (.ok nsent) = .sending (rcvq.pbufFreeHeader nsent) :=
  rfl

theorem queued_eq_some_iff (state : LoopState) (rcvq : PbufChain) :
    state.queued = some rcvq ↔
      state = .sending rcvq ∧ rcvq.isNull = false := by
  cases state with
  | sending chain =>
      cases present : chain.isNull with
      | true =>
          simp only [LoopState.queued, present, if_true,
            LoopState.sending.injEq]
          constructor
          · intro equal
            cases equal
          · rintro ⟨rfl, absent⟩
            rw [present] at absent
            cases absent
      | false =>
          simp only [LoopState.queued, present, Bool.false_eq_true,
            if_false, Option.some.injEq, LoopState.sending.injEq]
          constructor
          · rintro rfl
            exact ⟨rfl, present⟩
          · exact And.left
  | stalled chain =>
      simp [LoopState.queued]
  | aborted =>
      simp [LoopState.queued]

/-- Where the loop is not left, it offers the first buffer of a queue. -/
theorem exists_queued
    {state : LoopState} (runs : ¬ Left state) :
    ∃ rcvq, state = .sending rcvq ∧ rcvq.isNull = false := by
  rcases Option.ne_none_iff_exists'.mp runs with ⟨rcvq, queued⟩
  exact ⟨rcvq, (queued_eq_some_iff state rcvq).mp queued⟩

/-! ## Queues without empty buffers -/

/-- The queue, if the loop still has one, is without empty buffers. -/
def Filled : LoopState → Prop
  | .sending rcvq => rcvq.Solid
  | _ => True

/-- The bytes which the loop has still to send. -/
def unsent : LoopState → Nat
  | .sending rcvq => rcvq.bytes.length
  | _ => 0

theorem firstPayload_ne_nil
    {rcvq : PbufChain} (solid : rcvq.Solid)
    (queued : rcvq.isNull = false) :
    firstPayload rcvq ≠ [] := by
  cases rcvq with
  | mk pbufs sound =>
      cases pbufs with
      | nil =>
          cases queued
      | cons pbuf rest =>
          exact solid pbuf List.mem_cons_self

/-- There are at least as many bytes in a queue as in its first buffer. -/
theorem firstPayload_length_le (rcvq : PbufChain) :
    (firstPayload rcvq).length ≤ rcvq.bytes.length := by
  cases rcvq with
  | mk pbufs sound =>
      cases pbufs with
      | nil =>
          exact Nat.zero_le _
      | cons pbuf rest =>
          simp [firstPayload, PbufChain.bytes]

/-- Without empty buffers, a round brings the loop nearer to its end. -/
theorem sendRound_falls
    {rcvq : PbufChain} (solid : rcvq.Solid)
    (queued : rcvq.isNull = false)
    {result : Except Errno Nat}
    (permitted : mayReturn (firstPayload rcvq).length result) :
    Filled (sendRound rcvq result) ∧
      unsent (sendRound rcvq result) < unsent (.sending rcvq) := by
  have some_byte : 0 < (firstPayload rcvq).length :=
    List.length_pos_iff.mpr (firstPayload_ne_nil solid queued)
  have within := firstPayload_length_le rcvq
  cases result with
  | error errno =>
      by_cases again : errno = .eagain
      · simp only [sendRound, if_pos again, Filled, unsent, true_and]
        omega
      · simp only [sendRound, if_neg again, Filled, unsent, true_and]
        omega
  | ok nsent =>
      have positive : 0 < nsent := permitted.2 some_byte
      refine ⟨solid.pbufFreeHeader nsent, ?_⟩
      simp only [sendRound, unsent, PbufChain.bytes_pbufFreeHeader,
        List.length_drop]
      omega

/-- On a queue without empty buffers the loop is left. -/
theorem leaves_of_solid
    {rcvq : PbufChain} (solid : rcvq.Solid) :
    sendLoop.Inevitable Left (.sending rcvq) := by
  apply System.Inevitable.of_measure Filled unsent
  · intro source filled runs
    rcases exists_queued runs with ⟨chain, rfl, queued⟩
    refine ⟨.ok (firstPayload chain).length, _,
      ⟨chain, (queued_eq_some_iff _ chain).mpr ⟨rfl, queued⟩,
        Nat.le_refl _, id⟩, rfl⟩
  · intro source result target filled runs permitted handled
    rcases permitted with ⟨chain, offered, permitted⟩
    rcases (queued_eq_some_iff source chain).mp offered with
      ⟨rfl, queued⟩
    cases handled
    exact sendRound_falls filled queued permitted
  · exact solid

/-! ## Queues with an empty buffer -/

/-- The loop has a queue with an empty buffer. -/
def Hangs (state : LoopState) : Prop :=
  ∃ rcvq, state = .sending rcvq ∧ ¬ rcvq.Solid

theorem pbufFreeHeader_zero (rcvq : PbufChain) :
    rcvq.pbufFreeHeader 0 = rcvq := by
  cases rcvq with
  | mk pbufs sound =>
      cases pbufs with
      | nil => rfl
      | cons pbuf rest => rfl

/-- Freeing the whole first buffer leaves the rest of the queue. -/
theorem freeHeaderPbufs_first (pbuf : Pbuf) (rest : List Pbuf) :
    freeHeaderPbufs (pbuf :: rest) pbuf.len =
      if pbuf.payload = [] then pbuf :: rest else rest := by
  by_cases empty : pbuf.payload = []
  · simp [freeHeaderPbufs, Pbuf.len, empty]
  · have some_byte : ¬ pbuf.len = 0 := by
      intro zero
      exact empty (List.length_eq_zero_iff.mp zero)
    simp only [freeHeaderPbufs, if_neg some_byte, Nat.le_refl, if_true,
      Nat.sub_self, if_neg empty]
    cases rest with
    | nil => rfl
    | cons next others => rfl

/-- A proxy which takes all it is offered does not remove empty buffers. -/
theorem not_solid_pbufFreeHeader_first
    {rcvq : PbufChain} (hollow : ¬ rcvq.Solid) :
    ¬ (rcvq.pbufFreeHeader (firstPayload rcvq).length).Solid := by
  cases rcvq with
  | mk pbufs sound =>
      cases pbufs with
      | nil =>
          exact absurd PbufChain.solid_null hollow
      | cons pbuf rest =>
          have freed := freeHeaderPbufs_first pbuf rest
          intro solid
          by_cases empty : pbuf.payload = []
          · rw [if_pos empty] at freed
            apply solid pbuf _ empty
            show pbuf ∈ freeHeaderPbufs (pbuf :: rest) pbuf.len
            rw [freed]
            exact List.mem_cons_self
          · rw [if_neg empty] at freed
            apply hollow
            intro other member
            rcases List.mem_cons.mp member with rfl | member
            · exact empty
            · apply solid other
              show other ∈ freeHeaderPbufs (pbuf :: rest) pbuf.len
              rw [freed]
              exact member

theorem queued_of_not_solid
    {rcvq : PbufChain} (hollow : ¬ rcvq.Solid) :
    rcvq.isNull = false := by
  apply Bool.eq_false_iff.mpr
  intro absent
  apply hollow
  intro pbuf member
  rw [(PbufChain.isNull_iff rcvq).mp absent] at member
  cases member

/-- With an empty buffer in its queue, the loop need not be left. -/
theorem hangs_of_not_solid
    {rcvq : PbufChain} (hollow : ¬ rcvq.Solid) :
    ¬ sendLoop.Inevitable Left (.sending rcvq) := by
  apply System.not_inevitable_of_escape Hangs
  · rintro source ⟨chain, rfl, hollow⟩ left
    have queued := (queued_eq_some_iff _ chain).mpr
      ⟨rfl, queued_of_not_solid hollow⟩
    rw [left] at queued
    cases queued
  · rintro source ⟨chain, rfl, hollow⟩
    exact ⟨.ok (firstPayload chain).length, _,
      ⟨chain,
        (queued_eq_some_iff _ chain).mpr
          ⟨rfl, queued_of_not_solid hollow⟩,
        Nat.le_refl _, id⟩,
      rfl, _, rfl, not_solid_pbufFreeHeader_first hollow⟩
  · exact ⟨rcvq, rfl, hollow⟩

/--
The loop ends for every sequence of results exactly if every buffer of the
receive queue holds a byte.
-/
theorem send_loop_ends_iff (rcvq : PbufChain) :
    sendLoop.Inevitable Left (.sending rcvq) ↔ rcvq.Solid := by
  constructor
  · intro ends
    by_contra hollow
    exact hangs_of_not_solid hollow ends
  · exact leaves_of_solid

/-! ## A segment with its options in a buffer of their own -/

/--
A segment which arrived as two fragments: the header with twelve bytes of
options, and one byte of data.
-/
def fragmentedSegment : List Pbuf :=
  [{ payload := List.replicate 32 0, totLen := 33, len_lt := by decide },
    { payload := [65], totLen := 1, len_lt := by decide }]

/-- What `tcp_input` makes of it. -/
def emptyFronted : PbufChain where
  pbufs :=
    [{ payload := [], totLen := 1, len_lt := by decide },
      { payload := [65], totLen := 1, len_lt := by decide }]
  sound := ⟨rfl, rfl, trivial⟩

/--
The loop need not end on the data of this segment: whatever result
`proxy_send` may have, it goes on with the same queue.
-/
theorem send_loop_hangs_on_fragments :
    tcpInputPayload 32 fragmentedSegment = some emptyFronted.pbufs ∧
      ¬ sendLoop.Inevitable Left (.sending emptyFronted) ∧
      ∀ result,
        mayReturn (firstPayload emptyFronted).length result →
        sendRound emptyFronted result = .sending emptyFronted := by
  refine ⟨by decide, ?_, ?_⟩
  · apply hangs_of_not_solid
    intro solid
    exact solid _ List.mem_cons_self rfl
  · intro result permitted
    cases result with
    | error errno =>
        exact absurd permitted (Nat.lt_irrefl 0)
    | ok nsent =>
        have nothing : nsent = 0 := Nat.le_zero.mp permitted.1
        rw [nothing, sendRound_ok, pbufFreeHeader_zero]

/-! ## The body of the loop in the handlers -/

/-- What a round of the handlers shows of where the loop stands. -/
inductive Shows : LoopState → Round → World → Prop where
  | sending
      (present : world.fwd = some fwd) :
      Shows (.sending fwd.rcvq) .again world
  | stalled
      (present : world.fwd = some fwd) :
      Shows (.stalled fwd.rcvq) (.done .ok) world
  | aborted
      (gone : world.fwd = none) :
      Shows .aborted (.done .abrt) world

/-- A round of the handlers goes as the loop does with the same result. -/
theorem tcpProxyOutputRound_shows
    {live : Live} (linked : Linked live) (answer : SendAnswer) :
    ∃ round world,
      tcpProxyOutputRound answer live.world = .ok (round, world) ∧
        Shows
          (sendRound live.fwd.rcvq
            (live.proxy.send answer
              (firstPayload live.fwd.rcvq).length))
          round world := by
  cases sent :
      live.proxy.send answer (firstPayload live.fwd.rcvq).length with
  | error errno =>
      by_cases again : errno = .eagain
      · subst again
        exact ⟨_, _, tcpProxyOutputRound_full sent, .stalled rfl⟩
      · refine ⟨_, _, tcpProxyOutputRound_broken linked sent again, ?_⟩
        simp only [sendRound, if_neg again]
        exact .aborted rfl
  | ok nsent =>
      have shows :
          Shows (.sending (drain live nsent).fwd.rcvq) .again
            (drain live nsent).world :=
        .sending rfl
      exact ⟨_, _, tcpProxyOutputRound_drained sent, shows⟩

/-- The results of the proxies are among the permitted ones. -/
theorem mayReturn_send
    (proxy : Proxy) (answer : SendAnswer) {size : Nat}
    (offered : 0 < size) :
    mayReturn size (proxy.send answer size) := by
  cases sent : proxy.send answer size with
  | error errno =>
      exact offered
  | ok nsent =>
      exact (Proxy.send_ok sent).2

end Nsproxy.Core.SendLoop
