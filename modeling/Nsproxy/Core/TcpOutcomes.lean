import Mathlib.Tactic.Common
import Nsproxy.Core.TcpHandlers

/-!
# What the handlers can do

Each handler is run once, symbolically, on a live connection.  The result is
a relation with one constructor per way out of the source function.  The
properties of whole runs are proved from these relations and never look at a
handler's text again.

A transfer loop moves some chunks and then stops.  `Feeds` and `Drains` are
the moving part; the constructors of `ProxyInput` and `ProxyOutput` are the
ways of stopping.
-/

namespace Nsproxy.Core.TcpOutcomes

open Nsproxy.Lib.Handlers
open Nsproxy.Lwip.Opts
open Nsproxy.Lwip.Buffers
open Nsproxy.Lwip.TcpOut
open Nsproxy.Lwip.Tcp
open Nsproxy.Skutils
open Nsproxy.Core.Memory
open Nsproxy.Core.TcpHandlers

/-! ## Destruction -/

/-- Both pointers of the forward are set. -/
def Linked (live : Live) : Prop :=
  live.fwd.proxy = true ∧ live.fwd.pcb = true

/-- What an aborting destruction does. -/
def abortActions (live : Live) (force : Bool) : List Action :=
  .forwardDestroy live.fwd force :: .tcpAbort ::
    (abortEmission live.pcb).map .emit ++
      [.proxyShutdown true (live.proxy.shutdown .ok true), .proxyPut]

/-- The world after an aborting destruction. -/
def aborted (live : Live) (force : Bool) : World where
  fwd := none
  listed := false
  pcb := none
  proxy := none
  env := (live.record (abortActions live force)).env

/-- The answer of `tcp_close` in a closing destruction. -/
def closeResult (live : Live) : ErrT × Option TcpPcb × List Emission :=
  tcpClose live.env.inputPcb (live.env.tun.headD [])
    { live.pcb with callbacks := false }

/-- What a closing destruction does. -/
def closeActions (live : Live) : List Action :=
  .forwardDestroy live.fwd false :: .tcpClose ::
    (closeResult live).2.2.map .emit ++ [.proxyPut]

/-- The world after a closing destruction. -/
def closed (live : Live) : World where
  fwd := none
  listed := false
  pcb := (closeResult live).2.1
  proxy := none
  env := (live.takeWrites.record (closeActions live)).env

theorem tcpForwardDestroy_aborted
    {live : Live} (linked : Linked live) {force : Bool}
    (reset : (force || live.fwd.undelivered) = true) :
    tcpForwardDestroy force live.world = .ok ((), aborted live force) := by
  cases live with
  | mk fwd pcb proxy env =>
      simp only [Linked] at linked
      simp only at reset
      simp only [tcpForwardDestroy, bind_apply, getFwd_live, ok_bind,
        reset]
      simp [destroyPcb, destroyProxy, linked.1, linked.2, Live.world,
        alive, record, modifyPcb, getFwd, getPcb, callTcpAbort,
        callProxyShutdown, getProxy, callProxyPut, aborted,
        abortActions, Live.record, abortEmission]

theorem tcpForwardDestroy_closed
    {live : Live} (linked : Linked live)
    (delivered : live.fwd.undelivered = false) :
    tcpForwardDestroy false live.world = .ok ((), closed live) := by
  cases live with
  | mk fwd pcb proxy env =>
      simp only [Linked] at linked
      simp only at delivered
      simp only [tcpForwardDestroy, bind_apply, getFwd_live, ok_bind,
        delivered, Bool.or_self]
      simp [destroyPcb, destroyProxy, linked.1, linked.2, Live.world,
        alive, record, modifyPcb, getFwd, getPcb, callTcpClose, nextWrites,
        getProxy, callProxyPut, closed, closeActions, closeResult,
        Live.record, Live.takeWrites, tcpClose_ok]

theorem tcpForwardDestroy_forced
    {live : Live} (linked : Linked live) :
    tcpForwardDestroy true live.world = .ok ((), aborted live true) :=
  tcpForwardDestroy_aborted linked rfl

/-! ## Reading from the proxy -/

/-- The connection after a chunk was offered to `tcp_write`. -/
def offered
    (live : Live) (bytes : List UInt8) (err : ErrT) (next : TcpPcb) :
    Live :=
  ((live.record [.proxyRecv (.data bytes)]).modifyPcb
    fun _ => next).record [.tcpWrite bytes live.pcb.tcpSndbuf err]

/-- The connection after one chunk went from the proxy to lwIP. -/
def feed (live : Live) (bytes : List UInt8) (next : TcpPcb) : Live :=
  ((offered live bytes .ok next).modifyFwd
    fun fwd => enqueueSent fwd bytes).output

/-- Some chunks went from the proxy to lwIP. -/
inductive Feeds : Live → Live → Prop where
  | refl (live : Live) :
      Feeds live live
  | step
      (room : mayRead live.fwd live.pcb = true)
      (filled : bytes ≠ [])
      (short : bytes.length ≤ live.pcb.mss)
      (written : tcpWrite live.pcb bytes = .ok (.ok, next))
      (rest : Feeds (feed live bytes next) last) :
      Feeds live last

/-- The connection after the proxy ended its stream. -/
def proxyEnded (live : Live) : Live :=
  (live.record [.proxyRecv (.data [])]).modifyFwd
    fun fwd => { fwd with proxyeof := true }

/-- The connection after the proxy had nothing to read. -/
def proxyDry (live : Live) : Live :=
  (live.record [.proxyRecv (.err .eagain)]).evctl epollin .set

/-- How the read loop stops on a connection. -/
inductive InputLoop (live : Live) : Option ErrT → World → Prop where
  | full
      (stopped : mayRead live.fwd live.pcb = false) :
      InputLoop live none live.world
  | ended
      (room : mayRead live.fwd live.pcb = true)
      (forwarding : live.proxy.phase = .forwarding) :
      InputLoop live none (proxyEnded live).world
  | dry
      (room : mayRead live.fwd live.pcb = true)
      (forwarding : live.proxy.phase = .forwarding) :
      InputLoop live (some .ok) (proxyDry live).world
  | broken
      (room : mayRead live.fwd live.pcb = true)
      (other : errno ≠ .eagain) :
      InputLoop live (some .abrt)
        (aborted (live.record [.proxyRecv (.err errno)]) true)
  | refused
      (room : mayRead live.fwd live.pcb = true)
      (filled : bytes ≠ [])
      (short : bytes.length ≤ live.pcb.mss)
      (written : tcpWrite live.pcb bytes = .ok (err, live.pcb))
      (failed : err ≠ .ok) :
      InputLoop live (some .abrt)
        (aborted (offered live bytes err live.pcb) true)

theorem tcpProxyInputRound_dry
    {live : Live} {answer : RecvAnswer}
    (read : live.proxy.recv answer live.pcb.mss = .err .eagain) :
    tcpProxyInputRound answer live.world =
      .ok (.done .ok, (proxyDry live).world) := by
  simp only [tcpProxyInputRound, bind_apply, getPcb_live,
    callProxyRecv_live, ok_bind, read, if_true]
  rfl

theorem tcpProxyInputRound_broken
    {live : Live} (linked : Linked live)
    {answer : RecvAnswer} {errno : Errno}
    (read : live.proxy.recv answer live.pcb.mss = .err errno)
    (other : errno ≠ .eagain) :
    tcpProxyInputRound answer live.world =
      .ok (.done .abrt,
        aborted (live.record [.proxyRecv (.err errno)]) true) := by
  have destroyed :
      tcpForwardDestroy true
          (live.record [.proxyRecv (.err errno)]).world =
        .ok ((), aborted (live.record [.proxyRecv (.err errno)]) true) :=
    tcpForwardDestroy_forced linked
  simp only [tcpProxyInputRound, bind_apply, getPcb_live,
    callProxyRecv_live, ok_bind, read, if_neg other, destroyed,
    pure_apply]

theorem tcpProxyInputRound_ended
    {live : Live} {answer : RecvAnswer}
    (read : live.proxy.recv answer live.pcb.mss = .data []) :
    tcpProxyInputRound answer live.world =
      .ok (.leave, (proxyEnded live).world) := by
  simp only [tcpProxyInputRound, bind_apply, getPcb_live,
    callProxyRecv_live, ok_bind, read, modifyFwd_live, pure_apply]
  rfl

section Chunk

variable {live : Live} {answer : RecvAnswer} {bytes : List UInt8}

/-- A round which reads a chunk continues with `tcp_write`. -/
theorem tcpProxyInputRound_read
    (read : live.proxy.recv answer live.pcb.mss = .data bytes)
    (filled : bytes ≠ []) :
    tcpProxyInputRound answer live.world =
      (callTcpWrite bytes
          (live.record [.proxyRecv (.data bytes)]).world).bind
        fun answer =>
          if answer.1 ≠ .ok then
            (tcpForwardDestroy true answer.2).bind
              fun rest => .ok (.done .abrt, rest.2)
          else
            (modifyFwd (fun fwd => enqueueSent fwd bytes) answer.2).bind
              fun rest =>
                (callTcpOutput rest.2).bind
                  fun last => .ok (.again, last.2) := by
  cases bytes with
  | nil =>
      exact absurd rfl filled
  | cons byte rest =>
      simp only [tcpProxyInputRound, bind_apply, getPcb_live,
        callProxyRecv_live, ok_bind, read]
      congr 1
      funext answer
      by_cases refused : answer.1 ≠ .ok
      · simp only [if_pos refused, bind_apply, pure_apply]
      · simp only [if_neg refused, bind_apply, pure_apply]

theorem tcpProxyInputRound_assertion
    (read : live.proxy.recv answer live.pcb.mss = .data bytes)
    (filled : bytes ≠ []) {fault : Fault}
    (failed : tcpWrite live.pcb bytes = .error fault) :
    tcpProxyInputRound answer live.world = .error .assertion := by
  have call :
      callTcpWrite bytes
          (live.record [.proxyRecv (.data bytes)]).world =
        .error fault :=
    callTcpWrite_fault failed
  rw [tcpProxyInputRound_read read filled, call, error_bind,
    tcpWrite_fault failed]

/-- `tcp_write` after a chunk was read. -/
theorem callTcpWrite_offered
    {err : ErrT} {next : TcpPcb}
    (written : tcpWrite live.pcb bytes = .ok (err, next)) :
    callTcpWrite bytes
        (live.record [.proxyRecv (.data bytes)]).world =
      .ok (err, (offered live bytes err next).world) :=
  callTcpWrite_live written

theorem tcpProxyInputRound_fed
    (read : live.proxy.recv answer live.pcb.mss = .data bytes)
    (filled : bytes ≠ []) {next : TcpPcb}
    (written : tcpWrite live.pcb bytes = .ok (.ok, next)) :
    tcpProxyInputRound answer live.world =
      .ok (.again, (feed live bytes next).world) := by
  rw [tcpProxyInputRound_read read filled,
    callTcpWrite_offered written, ok_bind]
  rfl

theorem tcpProxyInputRound_refused
    (linked : Linked live)
    (read : live.proxy.recv answer live.pcb.mss = .data bytes)
    (filled : bytes ≠ []) {err : ErrT} {next : TcpPcb}
    (written : tcpWrite live.pcb bytes = .ok (err, next))
    (failed : err ≠ .ok) :
    tcpProxyInputRound answer live.world =
      .ok (.done .abrt, aborted (offered live bytes err next) true) := by
  have destroyed :
      tcpForwardDestroy true (offered live bytes err next).world =
        .ok ((), aborted (offered live bytes err next) true) :=
    tcpForwardDestroy_forced linked
  rw [tcpProxyInputRound_read read filled,
    callTcpWrite_offered written, ok_bind, if_pos failed, destroyed,
    ok_bind]

end Chunk

/-- How one round of the read loop goes. -/
inductive InputRound (live : Live) : Round → World → Prop where
  | fed
      (filled : bytes ≠ [])
      (short : bytes.length ≤ live.pcb.mss)
      (written : tcpWrite live.pcb bytes = .ok (.ok, next)) :
      InputRound live .again (feed live bytes next).world
  | leaves (stopped : InputLoop live none world) :
      InputRound live .leave world
  | returns (stopped : InputLoop live (some err) world) :
      InputRound live (.done err) world

/-- One round moves a chunk, or stops the loop, or asserts. -/
theorem tcpProxyInputRound_cases
    {live : Live} (linked : Linked live)
    (room : mayRead live.fwd live.pcb = true)
    (answer : RecvAnswer) :
    (∃ round world,
        tcpProxyInputRound answer live.world = .ok (round, world) ∧
          InputRound live round world) ∨
      tcpProxyInputRound answer live.world = .error .assertion := by
  cases read : live.proxy.recv answer live.pcb.mss with
  | err errno =>
      by_cases again : errno = .eagain
      · subst again
        exact .inl ⟨_, _, tcpProxyInputRound_dry read,
          .returns (.dry room (Proxy.recv_eagain read))⟩
      · exact .inl ⟨_, _, tcpProxyInputRound_broken linked read again,
          .returns (.broken room again)⟩
  | data bytes =>
      rcases Proxy.recv_data read with ⟨forwarding, short⟩
      by_cases filled : bytes = []
      · subst filled
        exact .inl ⟨_, _, tcpProxyInputRound_ended read,
          .leaves (.ended room forwarding)⟩
      · cases attempt : tcpWrite live.pcb bytes with
        | error fault =>
            exact .inr
              (tcpProxyInputRound_assertion read filled attempt)
        | ok answer =>
            rcases answer with ⟨err, next⟩
            rcases tcpWrite_cases attempt with
              ⟨rfl, _⟩ | ⟨failed, rfl⟩
            · exact .inl ⟨_, _,
                tcpProxyInputRound_fed read filled attempt,
                .fed filled short attempt⟩
            · exact .inl ⟨_, _,
                tcpProxyInputRound_refused linked read filled attempt
                  failed,
                .returns (.refused room filled short attempt failed)⟩

theorem tcpProxyInputLoop_full
    {live : Live} (stopped : mayRead live.fwd live.pcb = false)
    (answers : List RecvAnswer) :
    tcpProxyInputLoop answers live.world = .ok (none, live.world) := by
  cases answers with
  | nil =>
      simp [tcpProxyInputLoop, stopped]
  | cons answer rest =>
      simp [tcpProxyInputLoop, stopped]

/-- The loop moves some chunks and then stops, unless it asserts. -/
theorem tcpProxyInputLoop_cases
    {live : Live} (linked : Linked live) (answers : List RecvAnswer) :
    (∃ result world last,
        tcpProxyInputLoop answers live.world = .ok (result, world) ∧
          Feeds live last ∧ InputLoop last result world) ∨
      tcpProxyInputLoop answers live.world = .error .assertion := by
  induction answers generalizing live with
  | nil =>
      cases room : mayRead live.fwd live.pcb with
      | false =>
          exact .inl ⟨_, _, live, tcpProxyInputLoop_full room [],
            .refl live, .full room⟩
      | true =>
          rcases Proxy.recv_err live.proxy .eagain live.pcb.mss with
            ⟨errno, read⟩
          by_cases again : errno = .eagain
          · subst again
            refine .inl ⟨some .ok, _, live, ?_, .refl live,
              .dry room (Proxy.recv_eagain read)⟩
            simp [tcpProxyInputLoop, room, tcpProxyInputRound_dry read]
          · refine .inl ⟨some .abrt, _, live, ?_, .refl live,
              .broken room again⟩
            simp [tcpProxyInputLoop, room,
              tcpProxyInputRound_broken linked read again]
  | cons answer rest induction =>
      cases room : mayRead live.fwd live.pcb with
      | false =>
          exact .inl ⟨_, _, live, tcpProxyInputLoop_full room _,
            .refl live, .full room⟩
      | true =>
          rcases tcpProxyInputRound_cases linked room answer with
            ⟨round, world, run, ended⟩ | failed
          · cases ended with
            | @fed bytes next filled short written =>
                have fedLinked : Linked (feed live bytes next) := linked
                rcases induction fedLinked with
                  ⟨result, world, last, looped, feeds, stopped⟩ | failed
                · refine .inl ⟨result, world, last, ?_,
                    .step room filled short written feeds, stopped⟩
                  simp [tcpProxyInputLoop, room, run, looped]
                · refine .inr ?_
                  simp [tcpProxyInputLoop, room, run, failed]
            | leaves stopped =>
                refine .inl ⟨none, _, live, ?_, .refl live, stopped⟩
                simp [tcpProxyInputLoop, room, run]
            | returns stopped =>
                refine .inl ⟨some _, _, live, ?_, .refl live, stopped⟩
                simp [tcpProxyInputLoop, room, run]
          · refine .inr ?_
            simp [tcpProxyInputLoop, room, failed]

/-- The idle timer is reset. -/
def refreshed (live : Live) : Live :=
  live.modifyFwd fun fwd => { fwd with gc := nsproxyTcpIdleTimeout }

/-- How the read loop is left. -/
inductive InputLeft : Live → Live → Prop where
  | full (stopped : mayRead live.fwd live.pcb = false) :
      InputLeft live live
  | ended
      (room : mayRead live.fwd live.pcb = true)
      (forwarding : live.proxy.phase = .forwarding) :
      InputLeft live (proxyEnded live)

/-- The proxy ended its stream and everything from it was acknowledged. -/
def proxyFinished (fwd : TcpForward) : Bool :=
  fwd.proxyeof && fwd.sndq.isNull

/-- The application ended its stream and the proxy accepted all of it. -/
def lwipFinished (fwd : TcpForward) : Bool :=
  fwd.lwipeof && fwd.rcvq.isNull

/-- The ways out of `tcp_proxy_input`. -/
inductive ProxyInput (live : Live) : ErrT → World → Prop where
  | dry
      (feeds : Feeds (refreshed live) last)
      (room : mayRead last.fwd last.pcb = true)
      (forwarding : last.proxy.phase = .forwarding) :
      ProxyInput live .ok (proxyDry last).world
  | broken
      (feeds : Feeds (refreshed live) last)
      (room : mayRead last.fwd last.pcb = true)
      (other : errno ≠ .eagain) :
      ProxyInput live .abrt
        (aborted (last.record [.proxyRecv (.err errno)]) true)
  | refused
      (feeds : Feeds (refreshed live) last)
      (room : mayRead last.fwd last.pcb = true)
      (filled : bytes ≠ [])
      (short : bytes.length ≤ last.pcb.mss)
      (written : tcpWrite last.pcb bytes = .ok (err, last.pcb))
      (failed : err ≠ .ok) :
      ProxyInput live .abrt
        (aborted (offered last bytes err last.pcb) true)
  | stays
      (feeds : Feeds (refreshed live) last)
      (left : InputLeft last stop)
      (unfinished : proxyFinished stop.fwd = false) :
      ProxyInput live .ok (stop.evctl epollin .clr).world
  | halfCloses
      (feeds : Feeds (refreshed live) last)
      (left : InputLeft last stop)
      (finished : proxyFinished stop.fwd = true)
      (pending : lwipFinished stop.fwd = false) :
      ProxyInput live .ok (stop.evctl epollin .clr).shutdown.world
  | closes
      (feeds : Feeds (refreshed live) last)
      (left : InputLeft last stop)
      (finished : proxyFinished stop.fwd = true)
      (drained : lwipFinished stop.fwd = true) :
      ProxyInput live .clsd
        (closed (stop.evctl epollin .clr).shutdown)

theorem Feeds.linked
    {live last : Live} (feeds : Feeds live last) (linked : Linked live) :
    Linked last := by
  induction feeds with
  | refl live =>
      exact linked
  | step room filled short written rest induction =>
      exact induction linked

theorem InputLeft.linked
    {live stop : Live} (left : InputLeft live stop)
    (linked : Linked live) :
    Linked stop := by
  cases left with
  | full stopped =>
      exact linked
  | ended room forwarding =>
      exact linked

/-- The end of `tcp_proxy_input`, after the loop was left. -/
theorem tcpProxyInput_left
    {live last stop : Live} (linked : Linked live)
    (feeds : Feeds (refreshed live) last) (left : InputLeft last stop)
    {answers : List RecvAnswer}
    (looped :
      tcpProxyInputLoop answers (refreshed live).world =
        .ok (none, stop.world)) :
    ∃ err world,
      tcpProxyInput answers live.world = .ok (err, world) ∧
        ProxyInput live err world := by
  have stopLinked : Linked (stop.evctl epollin .clr).shutdown :=
    left.linked (feeds.linked linked)
  have started :
      modifyFwd (fun fwd => { fwd with gc := nsproxyTcpIdleTimeout })
          live.world =
        .ok ((), (refreshed live).world) :=
    rfl
  cases finished : proxyFinished stop.fwd with
  | false =>
      refine ⟨.ok, _, ?_, .stays feeds left finished⟩
      have test :
          ((stop.evctl epollin .clr).fwd.proxyeof &&
            (stop.evctl epollin .clr).fwd.sndq.isNull) = false :=
        finished
      simp only [tcpProxyInput, bind_apply, started, ok_bind, looped,
        callProxyEvctl_live, getFwd_live, test]
      rfl
  | true =>
      have test :
          ((stop.evctl epollin .clr).fwd.proxyeof &&
            (stop.evctl epollin .clr).fwd.sndq.isNull) = true :=
        finished
      cases drained : lwipFinished stop.fwd with
      | false =>
          refine ⟨.ok, _, ?_, .halfCloses feeds left finished drained⟩
          have next :
              ((stop.evctl epollin .clr).fwd.lwipeof &&
                (stop.evctl epollin .clr).fwd.rcvq.isNull) = false :=
            drained
          simp only [tcpProxyInput, bind_apply, started, ok_bind,
            looped, callProxyEvctl_live, getFwd_live, test, next]
          rfl
      | true =>
          refine ⟨.clsd, _, ?_, .closes feeds left finished drained⟩
          have next :
              ((stop.evctl epollin .clr).fwd.lwipeof &&
                (stop.evctl epollin .clr).fwd.rcvq.isNull) = true :=
            drained
          have delivered :
              (stop.evctl epollin .clr).shutdown.fwd.undelivered =
                false := by
            simp only [proxyFinished, Bool.and_eq_true] at finished
            simp only [lwipFinished, Bool.and_eq_true] at drained
            show (!stop.fwd.sndq.isNull || !stop.fwd.rcvq.isNull) = false
            rw [finished.2, drained.2]
            rfl
          have destroyed :=
            tcpForwardDestroy_closed stopLinked delivered
          simp only [tcpProxyInput, bind_apply, started, ok_bind,
            looped, callProxyEvctl_live, getFwd_live, test, next]
          simp [destroyed]

/-- `tcp_proxy_input` ends in one of the listed ways, or asserts. -/
theorem tcpProxyInput_cases
    {live : Live} (linked : Linked live) (answers : List RecvAnswer) :
    (∃ err world,
        tcpProxyInput answers live.world = .ok (err, world) ∧
          ProxyInput live err world) ∨
      tcpProxyInput answers live.world = .error .assertion := by
  have started :
      modifyFwd (fun fwd => { fwd with gc := nsproxyTcpIdleTimeout })
          live.world =
        .ok ((), (refreshed live).world) :=
    rfl
  have startLinked : Linked (refreshed live) := linked
  rcases tcpProxyInputLoop_cases startLinked answers with
    ⟨result, world, last, looped, feeds, ended⟩ | failed
  · cases ended with
    | full stopped =>
        exact .inl
          (tcpProxyInput_left linked feeds (.full stopped) looped)
    | ended room forwarding =>
        exact .inl
          (tcpProxyInput_left linked feeds (.ended room forwarding)
            looped)
    | dry room forwarding =>
        refine .inl ⟨.ok, _, ?_, .dry feeds room forwarding⟩
        simp [tcpProxyInput, started, looped]
    | broken room other =>
        refine .inl ⟨.abrt, _, ?_, .broken feeds room other⟩
        simp [tcpProxyInput, started, looped]
    | refused room filled short written failed =>
        refine .inl ⟨.abrt, _, ?_,
          .refused feeds room filled short written failed⟩
        simp [tcpProxyInput, started, looped]
  · refine .inr ?_
    simp [tcpProxyInput, started, failed]

/-! ## Writing to the proxy -/

/-- The connection after the proxy accepted bytes of the first buffer. -/
def drain (live : Live) (nsent : Nat) : Live :=
  ((live.record
      [.proxySend (firstPayload live.fwd.rcvq) (.ok nsent)]).modifyFwd
    fun fwd =>
      { fwd with rcvq := fwd.rcvq.pbufFreeHeader nsent }).recved nsent

/-- The proxy accepted some pieces of the receive queue. -/
inductive Drains : Live → Live → Prop where
  | refl (live : Live) :
      Drains live live
  | step
      (queued : live.fwd.rcvq.isNull = false)
      (forwarding : live.proxy.phase = .forwarding)
      (bounded : nsent ≤ (firstPayload live.fwd.rcvq).length)
      (progress :
        firstPayload live.fwd.rcvq ≠ [] → 0 < nsent)
      (rest : Drains (drain live nsent) last) :
      Drains live last

/-- The connection after the proxy accepted nothing. -/
def proxyFull (live : Live) : Live :=
  (live.record
    [.proxySend (firstPayload live.fwd.rcvq)
      (.error .eagain)]).evctl epollout .set

/-- The connection after a failed `proxy_send`. -/
def sendFailed (live : Live) (errno : Errno) : Live :=
  live.record
    [.proxySend (firstPayload live.fwd.rcvq) (.error errno)]

/-- How the write loop stops on a connection. -/
inductive OutputLoop (live : Live) : Option ErrT → World → Prop where
  | emptied
      (empty : live.fwd.rcvq.isNull = true) :
      OutputLoop live none live.world
  | full
      (queued : live.fwd.rcvq.isNull = false)
      (forwarding : live.proxy.phase = .forwarding) :
      OutputLoop live (some .ok) (proxyFull live).world
  | broken
      (queued : live.fwd.rcvq.isNull = false)
      (other : errno ≠ .eagain) :
      OutputLoop live (some .abrt)
        (aborted (sendFailed live errno) true)

theorem tcpProxyOutputRound_full
    {live : Live} {answer : SendAnswer}
    (sent :
      live.proxy.send answer (firstPayload live.fwd.rcvq).length =
        .error .eagain) :
    tcpProxyOutputRound answer live.world =
      .ok (.done .ok, (proxyFull live).world) := by
  simp only [tcpProxyOutputRound, bind_apply, getFwd_live,
    callProxySend_live, ok_bind, sent, if_true]
  rfl

theorem tcpProxyOutputRound_broken
    {live : Live} (linked : Linked live)
    {answer : SendAnswer} {errno : Errno}
    (sent :
      live.proxy.send answer (firstPayload live.fwd.rcvq).length =
        .error errno)
    (other : errno ≠ .eagain) :
    tcpProxyOutputRound answer live.world =
      .ok (.done .abrt, aborted (sendFailed live errno) true) := by
  have destroyed :
      tcpForwardDestroy true
          (live.record
            [.proxySend (firstPayload live.fwd.rcvq)
              (.error errno)]).world =
        .ok ((), aborted (sendFailed live errno) true) :=
    tcpForwardDestroy_forced linked
  simp only [tcpProxyOutputRound, bind_apply, getFwd_live,
    callProxySend_live, ok_bind, sent, if_neg other, destroyed,
    pure_apply]

theorem tcpProxyOutputRound_drained
    {live : Live} {answer : SendAnswer} {nsent : Nat}
    (sent :
      live.proxy.send answer (firstPayload live.fwd.rcvq).length =
        .ok nsent) :
    tcpProxyOutputRound answer live.world =
      .ok (.again, (drain live nsent).world) := by
  simp only [tcpProxyOutputRound, bind_apply, getFwd_live,
    callProxySend_live, ok_bind, sent, modifyFwd_live,
    callTcpRecved_live, pure_apply]
  rfl

/-- How one round of the write loop goes. -/
inductive OutputRound (live : Live) : Round → World → Prop where
  | drained
      (forwarding : live.proxy.phase = .forwarding)
      (bounded : nsent ≤ (firstPayload live.fwd.rcvq).length)
      (progress :
        firstPayload live.fwd.rcvq ≠ [] → 0 < nsent) :
      OutputRound live .again (drain live nsent).world
  | returns (stopped : OutputLoop live (some err) world) :
      OutputRound live (.done err) world

theorem tcpProxyOutputRound_cases
    {live : Live} (linked : Linked live)
    (queued : live.fwd.rcvq.isNull = false) (answer : SendAnswer) :
    ∃ round world,
      tcpProxyOutputRound answer live.world = .ok (round, world) ∧
        OutputRound live round world := by
  cases sent :
      live.proxy.send answer (firstPayload live.fwd.rcvq).length with
  | error errno =>
      by_cases again : errno = .eagain
      · subst again
        exact ⟨_, _, tcpProxyOutputRound_full sent,
          .returns (.full queued (Proxy.send_eagain sent))⟩
      · exact ⟨_, _, tcpProxyOutputRound_broken linked sent again,
          .returns (.broken queued again)⟩
  | ok nsent =>
      rcases Proxy.send_ok sent with ⟨forwarding, bounded, progress⟩
      refine ⟨_, _, tcpProxyOutputRound_drained sent,
        .drained forwarding bounded ?_⟩
      intro filled
      exact progress (List.length_pos_iff.mpr filled)

theorem tcpProxyOutputLoop_emptied
    {live : Live} (empty : live.fwd.rcvq.isNull = true)
    (answers : List SendAnswer) :
    tcpProxyOutputLoop answers live.world = .ok (none, live.world) := by
  cases answers with
  | nil =>
      simp [tcpProxyOutputLoop, empty]
  | cons answer rest =>
      simp [tcpProxyOutputLoop, empty]

/-- The loop drains some pieces and then stops. -/
theorem tcpProxyOutputLoop_cases
    {live : Live} (linked : Linked live) (answers : List SendAnswer) :
    ∃ result world last,
      tcpProxyOutputLoop answers live.world = .ok (result, world) ∧
        Drains live last ∧ OutputLoop last result world := by
  induction answers generalizing live with
  | nil =>
      cases queued : live.fwd.rcvq.isNull with
      | true =>
          exact ⟨_, _, live, tcpProxyOutputLoop_emptied queued [],
            .refl live, .emptied queued⟩
      | false =>
          rcases Proxy.send_err live.proxy .eagain
              (firstPayload live.fwd.rcvq).length with
            ⟨errno, sent⟩
          by_cases again : errno = .eagain
          · subst again
            refine ⟨some .ok, _, live, ?_, .refl live,
              .full queued (Proxy.send_eagain sent)⟩
            simp [tcpProxyOutputLoop, queued,
              tcpProxyOutputRound_full sent]
          · refine ⟨some .abrt, _, live, ?_, .refl live,
              .broken queued again⟩
            simp [tcpProxyOutputLoop, queued,
              tcpProxyOutputRound_broken linked sent again]
  | cons answer rest induction =>
      cases queued : live.fwd.rcvq.isNull with
      | true =>
          exact ⟨_, _, live, tcpProxyOutputLoop_emptied queued _,
            .refl live, .emptied queued⟩
      | false =>
          rcases tcpProxyOutputRound_cases linked queued answer with
            ⟨round, world, run, ended⟩
          cases ended with
          | @drained nsent forwarding bounded progress =>
              have drainLinked : Linked (drain live nsent) := linked
              rcases induction drainLinked with
                ⟨result, world, last, looped, drains, stopped⟩
              refine ⟨result, world, last, ?_,
                .step queued forwarding bounded progress drains,
                stopped⟩
              simp [tcpProxyOutputLoop, queued, run, looped]
          | returns stopped =>
              refine ⟨some _, _, live, ?_, .refl live, stopped⟩
              simp [tcpProxyOutputLoop, queued, run]

theorem Drains.linked
    {live last : Live} (drains : Drains live last)
    (linked : Linked live) :
    Linked last := by
  induction drains with
  | refl live =>
      exact linked
  | step queued forwarding bounded progress rest induction =>
      exact induction linked

/-- The end of the application's stream is still to be passed on. -/
def eofDue (fwd : TcpForward) : Bool :=
  fwd.lwipeof && !fwd.proxysendeof

/-- The connection after an empty queue was found. -/
def outputIdle (live : Live) : Live := live.evctl epollout .clr

/-- The connection after a call of `proxy_shutdown(SHUT_WR)`. -/
def shutTried (live : Live) (result : ShutAnswer) : Live :=
  (outputIdle live).record [.proxyShutdown false result]

/-- The end of the stream counts as passed on. -/
def eofSent (live : Live) : Live :=
  live.modifyFwd fun fwd => { fwd with proxysendeof := true }

/-- How the end of the application's stream is passed on. -/
inductive PassesEof (live : Live) : Live → Prop where
  | disabled (setting : live.env.noProxyHalfClose = true) :
      PassesEof live (eofSent (outputIdle live))
  | shut
      (setting : live.env.noProxyHalfClose = false)
      (forwarding : live.proxy.phase = .forwarding) :
      PassesEof live (eofSent (shutTried live .ok))

/-- The ways out of `tcp_proxy_output`. -/
inductive ProxyOutput (live : Live) (shut : ShutAnswer) :
    ErrT → World → Prop where
  | full
      (drains : Drains (refreshed live) last)
      (queued : last.fwd.rcvq.isNull = false)
      (forwarding : last.proxy.phase = .forwarding) :
      ProxyOutput live shut .ok (proxyFull last).world
  | broken
      (drains : Drains (refreshed live) last)
      (queued : last.fwd.rcvq.isNull = false)
      (other : errno ≠ .eagain) :
      ProxyOutput live shut .abrt
        (aborted (sendFailed last errno) true)
  | idle
      (drains : Drains (refreshed live) last)
      (empty : last.fwd.rcvq.isNull = true)
      (nothing : eofDue last.fwd = false) :
      ProxyOutput live shut .ok (outputIdle last).world
  | shutAgain
      (drains : Drains (refreshed live) last)
      (empty : last.fwd.rcvq.isNull = true)
      (due : eofDue last.fwd = true)
      (setting : last.env.noProxyHalfClose = false)
      (again : last.proxy.shutdown shut false = .err .eagain) :
      ProxyOutput live shut .ok
        ((shutTried last (.err .eagain)).evctl epollout .set).world
  | shutFailed
      (drains : Drains (refreshed live) last)
      (empty : last.fwd.rcvq.isNull = true)
      (due : eofDue last.fwd = true)
      (setting : last.env.noProxyHalfClose = false)
      (other : errno ≠ .eagain) :
      ProxyOutput live shut .abrt
        (aborted (shutTried last (.err errno)) true)
  | halfCloses
      (drains : Drains (refreshed live) last)
      (empty : last.fwd.rcvq.isNull = true)
      (due : eofDue last.fwd = true)
      (passes : PassesEof last next)
      (unfinished : proxyFinished next.fwd = false) :
      ProxyOutput live shut .ok next.world
  | closes
      (drains : Drains (refreshed live) last)
      (empty : last.fwd.rcvq.isNull = true)
      (due : eofDue last.fwd = true)
      (passes : PassesEof last next)
      (finished : proxyFinished next.fwd = true) :
      ProxyOutput live shut .clsd (closed next)

theorem PassesEof.linked
    {live next : Live} (passes : PassesEof live next)
    (linked : Linked live) :
    Linked next := by
  cases passes with
  | disabled setting =>
      exact linked
  | shut setting forwarding =>
      exact linked

theorem PassesEof.rcvq
    {live next : Live} (passes : PassesEof live next) :
    next.fwd.rcvq = live.fwd.rcvq := by
  cases passes with
  | disabled setting =>
      rfl
  | shut setting forwarding =>
      rfl

/-- The last lines of `tcp_proxy_output`. -/
theorem tcpProxyOutputClose_cases
    {live last before : Live} (linked : Linked live)
    {shut : ShutAnswer}
    (drains : Drains (refreshed live) last)
    (empty : last.fwd.rcvq.isNull = true)
    (due : eofDue last.fwd = true)
    (passes : PassesEof last (eofSent before)) :
    ∃ err world,
      tcpProxyOutputClose before.world = .ok (err, world) ∧
        ProxyOutput live shut err world := by
  have sentLinked : Linked (eofSent before) :=
    passes.linked (drains.linked linked)
  have marked :
      modifyFwd (fun fwd => { fwd with proxysendeof := true })
          before.world =
        .ok ((), (eofSent before).world) :=
    rfl
  cases finished : proxyFinished (eofSent before).fwd with
  | false =>
      refine ⟨.ok, _, ?_,
        .halfCloses drains empty due passes finished⟩
      have test :
          ((eofSent before).fwd.proxyeof &&
            (eofSent before).fwd.sndq.isNull) = false :=
        finished
      simp only [tcpProxyOutputClose, bind_apply, marked, ok_bind,
        getFwd_live, test]
      rfl
  | true =>
      refine ⟨.clsd, _, ?_, .closes drains empty due passes finished⟩
      have test :
          ((eofSent before).fwd.proxyeof &&
            (eofSent before).fwd.sndq.isNull) = true :=
        finished
      have delivered : (eofSent before).fwd.undelivered = false := by
        simp only [Bool.and_eq_true] at test
        rw [TcpForward.undelivered, test.2, passes.rcvq, empty]
        rfl
      have destroyed := tcpForwardDestroy_closed sentLinked delivered
      simp only [tcpProxyOutputClose, bind_apply, marked, ok_bind,
        getFwd_live, test]
      simp [destroyed]

/-- Passing the end of the stream to the proxy. -/
theorem tcpProxyOutputEof_cases
    {live last : Live} (linked : Linked live)
    (drains : Drains (refreshed live) last)
    (empty : last.fwd.rcvq.isNull = true)
    (due : eofDue last.fwd = true) (shut : ShutAnswer) :
    ∃ err world,
      tcpProxyOutputEof shut (outputIdle last).world =
          .ok (err, world) ∧
        ProxyOutput live shut err world := by
  have sameSetting :
      (outputIdle last).world.env.noProxyHalfClose =
        last.env.noProxyHalfClose :=
    rfl
  have samePhase :
      (outputIdle last).proxy.shutdown shut false =
        last.proxy.shutdown shut false := by
    simp only [Proxy.shutdown, outputIdle, Live.evctl,
      Proxy.evctl_phase]
  cases setting : last.env.noProxyHalfClose with
  | true =>
      rcases tcpProxyOutputClose_cases linked drains empty due
          (.disabled setting) with
        ⟨err, world, closing, outcome⟩
      refine ⟨err, world, ?_, outcome⟩
      simp only [tcpProxyOutputEof, bind_apply, get_apply, ok_bind,
        sameSetting, setting, if_true]
      exact closing
  | false =>
      cases tried : last.proxy.shutdown shut false with
      | ok =>
          rcases tcpProxyOutputClose_cases linked drains empty due
              (.shut setting (Proxy.shutdown_ok tried)) with
            ⟨err, world, closing, outcome⟩
          refine ⟨err, world, ?_, outcome⟩
          simp only [tcpProxyOutputEof, bind_apply, get_apply, ok_bind,
            sameSetting, setting, Bool.false_eq_true, if_false,
            callProxyShutdown_live, samePhase, tried]
          exact closing
      | err errno =>
          have destroyed :
              tcpForwardDestroy true
                  ((outputIdle last).record
                    [.proxyShutdown false (.err errno)]).world =
                .ok ((), aborted (shutTried last (.err errno)) true) :=
            tcpForwardDestroy_forced (drains.linked linked)
          by_cases again : errno = .eagain
          · subst again
            refine ⟨.ok, _, ?_,
              .shutAgain drains empty due setting tried⟩
            simp only [tcpProxyOutputEof, bind_apply, get_apply,
              ok_bind, sameSetting, setting, Bool.false_eq_true,
              if_false, callProxyShutdown_live, samePhase, tried,
              if_true]
            rfl
          · refine ⟨.abrt, _, ?_,
              .shutFailed drains empty due setting again⟩
            simp only [tcpProxyOutputEof, bind_apply, get_apply,
              ok_bind, sameSetting, setting, Bool.false_eq_true,
              if_false, callProxyShutdown_live, samePhase, tried,
              if_neg again, destroyed, pure_apply]

/-- `tcp_proxy_output` ends in one of the listed ways. -/
theorem tcpProxyOutput_cases
    {live : Live} (linked : Linked live)
    (answers : List SendAnswer) (shut : ShutAnswer) :
    ∃ err world,
      tcpProxyOutput answers shut live.world = .ok (err, world) ∧
        ProxyOutput live shut err world := by
  have started :
      modifyFwd (fun fwd => { fwd with gc := nsproxyTcpIdleTimeout })
          live.world =
        .ok ((), (refreshed live).world) :=
    rfl
  have startLinked : Linked (refreshed live) := linked
  rcases tcpProxyOutputLoop_cases startLinked answers with
    ⟨result, world, last, looped, drains, ended⟩
  cases ended with
  | full queued forwarding =>
      refine ⟨.ok, _, ?_, .full drains queued forwarding⟩
      simp [tcpProxyOutput, started, looped]
  | broken queued other =>
      refine ⟨.abrt, _, ?_, .broken drains queued other⟩
      simp [tcpProxyOutput, started, looped]
  | emptied empty =>
      have idle :
          callProxyEvctl epollout .clr last.world =
            .ok ((), (outputIdle last).world) :=
        rfl
      cases due : eofDue last.fwd with
      | false =>
          refine ⟨.ok, _, ?_, .idle drains empty due⟩
          have test :
              ((outputIdle last).fwd.lwipeof &&
                !(outputIdle last).fwd.proxysendeof) = false :=
            due
          simp only [tcpProxyOutput, bind_apply, started, ok_bind,
            looped, idle, getFwd_live, test]
          rfl
      | true =>
          rcases tcpProxyOutputEof_cases linked drains empty due
              shut with
            ⟨err, world, passing, outcome⟩
          refine ⟨err, world, ?_, outcome⟩
          have test :
              ((outputIdle last).fwd.lwipeof &&
                !(outputIdle last).fwd.proxysendeof) = true :=
            due
          simp only [tcpProxyOutput, bind_apply, started, ok_bind,
            looped, idle, getFwd_live, test, if_true]
          exact passing

end Nsproxy.Core.TcpOutcomes
