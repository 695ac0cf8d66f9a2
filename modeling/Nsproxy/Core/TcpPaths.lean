import Mathlib.Logic.Relation
import Mathlib.Tactic.Common
import Nsproxy.Core.TcpOutcomes

/-!
# Handlers as sequences of small steps

Every handler leads a live connection through a sequence of small steps, each
with the condition under which the source takes it.  The handler then returns
with the connection alive, or it destroys the forward: by force, or because
both directions are finished.

An invariant of live connections is proved by one case per small step, and
then holds wherever a handler can leave the connection.
-/

namespace Nsproxy.Core.TcpPaths

open Nsproxy.Lib.Handlers
open Nsproxy.Lwip.Opts
open Nsproxy.Lwip.Buffers
open Nsproxy.Lwip.TcpOut
open Nsproxy.Lwip.Tcp
open Nsproxy.Skutils
open Nsproxy.Core.Memory
open Nsproxy.Core.TcpHandlers
open Nsproxy.Core.TcpOutcomes

/-- The connection when `tcp_output` starts to emit. -/
def establishing (live : Live) : Live :=
  (live.modifyPcb fun pcb => { pcb with proxyestab := true }).record
    [.established]

/-- One small step of a handler on a live connection. -/
inductive Micro : Live → Live → Prop where
  | refresh (live : Live) :
      Micro live (refreshed live)
  | evctl (live : Live) (mask : EventMask) (mode : EvMode) :
      Micro live (live.evctl mask mode)
  | recvFailed (live : Live) (errno : Errno) :
      Micro live (live.record [.proxyRecv (.err errno)])
  | feed
      (room : mayRead live.fwd live.pcb = true)
      (filled : bytes ≠ [])
      (short : bytes.length ≤ live.pcb.mss)
      (written : tcpWrite live.pcb bytes = .ok (.ok, next)) :
      Micro live (feed live bytes next)
  | proxyEnded
      (room : mayRead live.fwd live.pcb = true) :
      Micro live (proxyEnded live)
  | shutdown
      (finished : proxyFinished live.fwd = true) :
      Micro live live.shutdown
  | sendFailed (live : Live) (errno : Errno) :
      Micro live (sendFailed live errno)
  | drain
      (queued : live.fwd.rcvq.isNull = false)
      (bounded : nsent ≤ (firstPayload live.fwd.rcvq).length) :
      Micro live (drain live nsent)
  | shutFailed
      (setting : live.env.noProxyHalfClose = false)
      (errno : Errno) :
      Micro live (live.record [.proxyShutdown false (.err errno)])
  | eofShut
      (setting : live.env.noProxyHalfClose = false)
      (empty : live.fwd.rcvq.isNull = true)
      (due : eofDue live.fwd = true) :
      Micro live
        (eofSent (live.record [.proxyShutdown false .ok]))
  | eofDisabled
      (setting : live.env.noProxyHalfClose = true)
      (empty : live.fwd.rcvq.isNull = true)
      (due : eofDue live.fwd = true) :
      Micro live (eofSent live)
  | ack (live : Live) :
      Micro live (live.modifyPcb tcpAck)
  | establish (live : Live) :
      Micro live (establishing live)
  | output (live : Live) :
      Micro live live.output

/-- Any number of small steps. -/
abbrev Path : Live → Live → Prop := Relation.ReflTransGen Micro

/-- An invariant of small steps holds along every path. -/
theorem Path.preserves
    {invariant : Live → Prop}
    (step :
      ∀ live next, Micro live next → invariant live → invariant next)
    {live last : Live} (path : Path live last)
    (start : invariant live) :
    invariant last := by
  induction path with
  | refl =>
      exact start
  | tail before next induction =>
      exact step _ _ next induction

/-- How a handler leaves a live connection. -/
inductive Ends (live : Live) : ErrT → World → Prop where
  | lives (path : Path live last) :
      Ends live .ok last.world
  | aborts (path : Path live last) :
      Ends live .abrt (aborted last true)
  | refuses
      (path : Path live last)
      (room : mayRead last.fwd last.pcb = true)
      (filled : bytes ≠ [])
      (short : bytes.length ≤ last.pcb.mss)
      (written : tcpWrite last.pcb bytes = .ok (err, last.pcb))
      (failed : err ≠ .ok) :
      Ends live .abrt (aborted (offered last bytes err last.pcb) true)
  | closes
      (path : Path live last)
      (finished : proxyFinished last.fwd = true)
      (drained : lwipFinished last.fwd = true) :
      Ends live .clsd (closed last)

/-- A handler may be preceded by small steps. -/
theorem Ends.after
    {first live : Live} {err : ErrT} {world : World}
    (before : Path first live) (ends : Ends live err world) :
    Ends first err world := by
  cases ends with
  | lives path =>
      exact .lives (before.trans path)
  | aborts path =>
      exact .aborts (before.trans path)
  | refuses path room filled short written failed =>
      exact .refuses (before.trans path) room filled short written failed
  | closes path finished drained =>
      exact .closes (before.trans path) finished drained

/-! ## The transfer functions -/

theorem Feeds.path {live last : Live} (feeds : Feeds live last) :
    Path live last := by
  induction feeds with
  | refl live =>
      exact .refl
  | step room filled short written rest induction =>
      exact .head (.feed room filled short written) induction

theorem InputLeft.path {live stop : Live} (left : InputLeft live stop) :
    Path live stop := by
  cases left with
  | full stopped =>
      exact .refl
  | ended room forwarding =>
      exact .single (.proxyEnded room)

theorem ProxyInput.ends
    {live : Live} {err : ErrT} {world : World}
    (outcome : ProxyInput live err world) :
    Ends live err world := by
  have start : Path live (refreshed live) := .single (.refresh live)
  cases outcome with
  | dry feeds room forwarding =>
      have path := start.trans (Feeds.path feeds)
      exact .lives
        ((path.tail (.recvFailed _ .eagain)).tail
          (.evctl _ epollin .set))
  | broken feeds room other =>
      have path := start.trans (Feeds.path feeds)
      exact .aborts (path.tail (.recvFailed _ _))
  | refused feeds room filled short written failed =>
      have path := start.trans (Feeds.path feeds)
      exact .refuses path room filled short written failed
  | stays feeds left unfinished =>
      have path :=
        (start.trans (Feeds.path feeds)).trans (InputLeft.path left)
      exact .lives (path.tail (.evctl _ epollin .clr))
  | halfCloses feeds left finished pending =>
      have path :=
        (start.trans (Feeds.path feeds)).trans (InputLeft.path left)
      exact .lives
        ((path.tail (.evctl _ epollin .clr)).tail (.shutdown finished))
  | closes feeds left finished drained =>
      have path :=
        (start.trans (Feeds.path feeds)).trans (InputLeft.path left)
      exact .closes
        ((path.tail (.evctl _ epollin .clr)).tail (.shutdown finished))
        finished drained

theorem Drains.path {live last : Live} (drains : Drains live last) :
    Path live last := by
  induction drains with
  | refl live =>
      exact .refl
  | step queued forwarding bounded progress rest induction =>
      exact .head (.drain queued bounded) induction

theorem PassesEof.path
    {live next : Live} (passes : PassesEof live next)
    (empty : live.fwd.rcvq.isNull = true)
    (due : eofDue live.fwd = true) :
    Path live next := by
  have idle : Path live (outputIdle live) :=
    .single (.evctl live epollout .clr)
  cases passes with
  | disabled setting =>
      exact idle.tail (.eofDisabled setting empty due)
  | shut setting forwarding =>
      exact idle.tail (.eofShut setting empty due)

theorem PassesEof.lwipFinished
    {live next : Live} (passes : PassesEof live next)
    (empty : live.fwd.rcvq.isNull = true)
    (due : eofDue live.fwd = true) :
    lwipFinished next.fwd = true := by
  simp only [eofDue, Bool.and_eq_true] at due
  cases passes with
  | disabled setting =>
      show (live.fwd.lwipeof && live.fwd.rcvq.isNull) = true
      rw [due.1, empty]
      rfl
  | shut setting forwarding =>
      show (live.fwd.lwipeof && live.fwd.rcvq.isNull) = true
      rw [due.1, empty]
      rfl

theorem ProxyOutput.ends
    {live : Live} {shut : ShutAnswer} {err : ErrT} {world : World}
    (outcome : ProxyOutput live shut err world) :
    Ends live err world := by
  have start : Path live (refreshed live) := .single (.refresh live)
  cases outcome with
  | full drains queued forwarding =>
      have path := start.trans (Drains.path drains)
      exact .lives
        ((path.tail (.sendFailed _ .eagain)).tail
          (.evctl _ epollout .set))
  | broken drains queued other =>
      have path := start.trans (Drains.path drains)
      exact .aborts (path.tail (.sendFailed _ _))
  | idle drains empty nothing =>
      have path := start.trans (Drains.path drains)
      exact .lives (path.tail (.evctl _ epollout .clr))
  | @shutAgain last drains empty due setting again =>
      have path := start.trans (Drains.path drains)
      have idle := path.tail (.evctl _ epollout .clr)
      have attempt :
          Micro (outputIdle last) (shutTried last (.err .eagain)) :=
        @Micro.shutFailed (outputIdle last) setting .eagain
      exact .lives ((idle.tail attempt).tail (.evctl _ epollout .set))
  | @shutFailed last errno drains empty due setting other =>
      have path := start.trans (Drains.path drains)
      have idle := path.tail (.evctl _ epollout .clr)
      have attempt :
          Micro (outputIdle last) (shutTried last (.err errno)) :=
        @Micro.shutFailed (outputIdle last) setting errno
      exact .aborts (idle.tail attempt)
  | halfCloses drains empty due passes unfinished =>
      have path := start.trans (Drains.path drains)
      exact .lives (path.trans (PassesEof.path passes empty due))
  | closes drains empty due passes finished =>
      have path := start.trans (Drains.path drains)
      exact .closes (path.trans (PassesEof.path passes empty due))
        finished (PassesEof.lwipFinished passes empty due)

theorem Micro.linked
    {live next : Live} (step : Micro live next) (linked : Linked live) :
    Linked next := by
  cases step <;> exact linked

theorem Path.linked
    {live last : Live} (path : Path live last) (linked : Linked live) :
    Linked last :=
  path.preserves (fun _ _ step before => step.linked before) linked

/-- The phase of the proxy is not the forwarder's to change. -/
theorem Path.phase {live last : Live} (path : Path live last) :
    last.proxy.phase = live.proxy.phase := by
  induction path with
  | refl =>
      rfl
  | tail before next induction =>
      rw [← induction]
      cases next with
      | evctl _ mask mode => exact Proxy.evctl_phase _ _ mask mode
      | _ => rfl

/-- A handler which returns `ERR_OK` leaves the connection alive. -/
theorem Ends.ok
    {live : Live} {world : World} (ends : Ends live .ok world) :
    ∃ last, Path live last ∧ world = last.world := by
  cases ends with
  | lives path =>
      exact ⟨_, path, rfl⟩

/-- Only `ERR_OK` leaves the connection alive. -/
theorem Ends.ok_of_alive
    {live last : Live} {err : ErrT}
    (ends : Ends live err last.world) :
    err = .ok := by
  generalize left : last.world = world at ends
  cases ends with
  | lives path =>
      rfl
  | aborts path =>
      cases congrArg World.fwd left
  | refuses path room filled short written failed =>
      cases congrArg World.fwd left
  | closes path finished drained =>
      cases congrArg World.fwd left

theorem Ends.path_of_alive
    {live last : Live} {err : ErrT}
    (ends : Ends live err last.world) :
    Path live last := by
  have fine := ends.ok_of_alive
  subst fine
  rcases ends.ok with ⟨other, path, same⟩
  cases Live.world_injective same
  exact path

/-! ## The callbacks of lwIP -/

/-- The connection after an acknowledgement was reported. -/
def acknowledged (live : Live) (len : Nat) : Live :=
  (live.record [.lwipSent len]).modifyFwd
    fun fwd => { fwd with sndq := fwd.sndq.pbufFreeHeader len }

/-- The ways out of `tcp_lwip_sent`. -/
inductive LwipSent (live : Live) (len : Nat) : ErrT → World → Prop where
  | reads
      (asks : asksMore live.pcb)
      (outcome : ProxyInput (acknowledged live len) err world) :
      LwipSent live len err world
  | waits
      (short : ¬ asksMore live.pcb) :
      LwipSent live len .ok (acknowledged live len).world

theorem tcpLwipSent_live
    (live : Live) (len : UInt16) (answers : List RecvAnswer) :
    tcpLwipSent len answers live.world =
      if asksMore live.pcb then
        tcpProxyInput answers (acknowledged live len.toNat).world
      else
        .ok (.ok, (acknowledged live len.toNat).world) := by
  simp only [tcpLwipSent, bind_apply, record_live, ok_bind,
    modifyFwd_live, getPcb_live, ite_handler_apply, pure_apply]
  rfl

theorem tcpLwipSent_cases
    {live : Live} (linked : Linked live)
    (len : UInt16) (answers : List RecvAnswer) :
    (∃ err world,
        tcpLwipSent len answers live.world = .ok (err, world) ∧
          LwipSent live len.toNat err world) ∨
      tcpLwipSent len answers live.world = .error .assertion := by
  rw [tcpLwipSent_live]
  by_cases asks : asksMore live.pcb
  · rw [if_pos asks]
    have ackLinked : Linked (acknowledged live len.toNat) := linked
    rcases tcpProxyInput_cases ackLinked answers with
      ⟨err, world, run, outcome⟩ | failed
    · exact .inl ⟨err, world, run, .reads asks outcome⟩
    · exact .inr failed
  · rw [if_neg asks]
    exact .inl ⟨.ok, _, rfl, .waits asks⟩

theorem LwipSent.ends
    {live : Live} {len : Nat} {err : ErrT} {world : World}
    (outcome : LwipSent live len err world) :
    Ends (acknowledged live len) err world := by
  cases outcome with
  | reads asks outcome =>
      exact ProxyInput.ends outcome
  | waits short =>
      exact .lives .refl

/-- The connection after a chain, or the end of the stream, arrived. -/
def arrived (live : Live) (chain : PbufChain) : Live :=
  (live.record [.lwipReceived chain]).modifyFwd
    fun fwd =>
      if chain.isNull then { fwd with lwipeof := true }
      else enqueueReceived fwd chain

/-- The ways out of `tcp_lwip_received`. -/
inductive LwipReceived (live : Live) (chain : PbufChain)
    (shut : ShutAnswer) : ErrT → World → Prop where
  | acks
      {last : Live}
      (outcome : ProxyOutput (arrived live chain) shut .ok last.world) :
      LwipReceived live chain shut .ok (last.modifyPcb tcpAck).world
  | destroys
      (outcome : ProxyOutput (arrived live chain) shut err world)
      (ended : err ≠ .ok) :
      LwipReceived live chain shut err world

theorem arrived_linked
    {live : Live} (linked : Linked live) (chain : PbufChain) :
    Linked (arrived live chain) := by
  simp only [Linked, arrived, Live.modifyFwd, Live.record]
  split
  · exact linked
  · exact linked

theorem tcpLwipReceived_live
    (live : Live) (chain : PbufChain)
    (answers : List SendAnswer) (shut : ShutAnswer) :
    tcpLwipReceived chain answers shut live.world =
      (tcpProxyOutput answers shut (arrived live chain).world).bind
        fun answer =>
          if answer.1 = .ok then
            (modifyPcb tcpAck answer.2).bind
              fun rest => .ok (answer.1, rest.2)
          else
            .ok answer := by
  simp only [tcpLwipReceived, bind_apply, record_live, ok_bind,
    modifyFwd_live, ite_handler_apply, pure_apply]
  rfl

theorem tcpLwipReceived_cases
    {live : Live} (linked : Linked live) (chain : PbufChain)
    (answers : List SendAnswer) (shut : ShutAnswer) :
    ∃ err world,
      tcpLwipReceived chain answers shut live.world =
          .ok (err, world) ∧
        LwipReceived live chain shut err world := by
  rcases tcpProxyOutput_cases (arrived_linked linked chain) answers
      shut with
    ⟨err, world, run, outcome⟩
  by_cases fine : err = .ok
  · subst fine
    rcases (ProxyOutput.ends outcome).ok with ⟨last, path, rfl⟩
    refine ⟨.ok, _, ?_, .acks outcome⟩
    rw [tcpLwipReceived_live, run, ok_bind, if_pos rfl]
    rfl
  · refine ⟨err, world, ?_, .destroys outcome fine⟩
    rw [tcpLwipReceived_live, run, ok_bind, if_neg fine]

theorem LwipReceived.ends
    {live : Live} {chain : PbufChain} {shut : ShutAnswer}
    {err : ErrT} {world : World}
    (outcome : LwipReceived live chain shut err world) :
    Ends (arrived live chain) err world := by
  cases outcome with
  | acks outcome =>
      rcases (ProxyOutput.ends outcome).ok with ⟨last, path, same⟩
      cases Live.world_injective same
      exact .lives (path.tail (.ack _))
  | destroys outcome ended =>
      exact ProxyOutput.ends outcome

/-! ## Events of the proxy -/

/-- The reading part of an event leaves the connection alive. -/
inductive Readable (live : Live) (events : EventMask) : Live → Prop where
  | skipped (clear : events.meets epollin = false) :
      Readable live events live
  | read
      {mid : Live}
      (ready : events.meets epollin = true)
      (outcome : ProxyInput live .ok mid.world) :
      Readable live events mid

/-- The writing part of an event leaves the connection alive. -/
inductive Writable (live : Live) (events : EventMask)
    (shut : ShutAnswer) : Live → Prop where
  | skipped (clear : events.meets epollout = false) :
      Writable live events shut live
  | written
      {last : Live}
      (ready : events.meets epollout = true)
      (outcome : ProxyOutput live shut .ok last.world) :
      Writable live events shut last

/-- The connection after the delayed SYN+ACK was sent. -/
def establishedLive (live : Live) : Live :=
  if live.pcb.proxyestab then live else (establishing live).output

/-- The ways out of `tcp_proxy_io_event`. -/
inductive IoEvent (live : Live) (events : EventMask)
    (shut : ShutAnswer) : ErrT → World → Prop where
  | readEnds
      (ready : events.meets epollin = true)
      (outcome : ProxyInput live err world)
      (ended : err ≠ .ok) :
      IoEvent live events shut err world
  | writeEnds
      (read : Readable live events mid)
      (ready : events.meets epollout = true)
      (outcome : ProxyOutput mid shut err world)
      (ended : err ≠ .ok) :
      IoEvent live events shut err world
  | goesOn
      (read : Readable live events mid)
      (written : Writable mid events shut last) :
      IoEvent live events shut .ok (establishedLive last).world

theorem Readable.path
    {live mid : Live} {events : EventMask}
    (read : Readable live events mid) :
    Path live mid := by
  cases read with
  | skipped clear =>
      exact .refl
  | read ready outcome =>
      rcases (ProxyInput.ends outcome).ok with ⟨last, path, same⟩
      cases Live.world_injective same
      exact path

theorem Writable.path
    {live last : Live} {events : EventMask} {shut : ShutAnswer}
    (written : Writable live events shut last) :
    Path live last := by
  cases written with
  | skipped clear =>
      exact .refl
  | written ready outcome =>
      rcases (ProxyOutput.ends outcome).ok with ⟨last, path, same⟩
      cases Live.world_injective same
      exact path

theorem path_establishedLive (live : Live) :
    Path live (establishedLive live) := by
  unfold establishedLive
  split
  · exact .refl
  · exact (Relation.ReflTransGen.single (.establish live)).tail
      (.output _)

theorem IoEvent.ends
    {live : Live} {events : EventMask} {shut : ShutAnswer}
    {err : ErrT} {world : World}
    (outcome : IoEvent live events shut err world) :
    Ends live err world := by
  cases outcome with
  | readEnds ready outcome ended =>
      exact ProxyInput.ends outcome
  | writeEnds read ready outcome ended =>
      exact (ProxyOutput.ends outcome).after read.path
  | goesOn read written =>
      exact .lives
        ((read.path.trans written.path).trans
          (path_establishedLive _))

theorem onReadable_cases
    {live : Live} (linked : Linked live) (events : EventMask)
    (answers : List RecvAnswer) :
    (∃ err world,
        onReadable events answers live.world = .ok (err, world) ∧
          ((err = .ok ∧
              ∃ mid : Live,
                world = mid.world ∧ Readable live events mid) ∨
            (err ≠ .ok ∧ events.meets epollin = true ∧
              ProxyInput live err world))) ∨
      onReadable events answers live.world = .error .assertion := by
  cases ready : events.meets epollin with
  | false =>
      refine .inl ⟨.ok, live.world, ?_,
        .inl ⟨rfl, live, rfl, .skipped ready⟩⟩
      simp [onReadable, ready]
  | true =>
      have same :
          onReadable events answers live.world =
            tcpProxyInput answers live.world := by
        simp [onReadable, ready]
      rw [same]
      rcases tcpProxyInput_cases linked answers with
        ⟨err, world, run, outcome⟩ | failed
      · refine .inl ⟨err, world, run, ?_⟩
        by_cases fine : err = .ok
        · subst fine
          rcases (ProxyInput.ends outcome).ok with ⟨mid, path, rfl⟩
          exact .inl ⟨rfl, mid, rfl, .read ready outcome⟩
        · exact .inr ⟨fine, rfl, outcome⟩
      · exact .inr failed

theorem onWritable_cases
    {live : Live} (linked : Linked live) (events : EventMask)
    (answers : List SendAnswer) (shut : ShutAnswer) :
    ∃ err world,
      onWritable events answers shut live.world = .ok (err, world) ∧
        ((err = .ok ∧
            ∃ last : Live,
              world = last.world ∧ Writable live events shut last) ∨
          (err ≠ .ok ∧ events.meets epollout = true ∧
            ProxyOutput live shut err world)) := by
  cases ready : events.meets epollout with
  | false =>
      refine ⟨.ok, live.world, ?_,
        .inl ⟨rfl, live, rfl, .skipped ready⟩⟩
      simp [onWritable, ready]
  | true =>
      have same :
          onWritable events answers shut live.world =
            tcpProxyOutput answers shut live.world := by
        simp [onWritable, ready]
      rw [same]
      rcases tcpProxyOutput_cases linked answers shut with
        ⟨err, world, run, outcome⟩
      refine ⟨err, world, run, ?_⟩
      by_cases fine : err = .ok
      · subst fine
        rcases (ProxyOutput.ends outcome).ok with ⟨last, path, rfl⟩
        exact .inl ⟨rfl, last, rfl, .written ready outcome⟩
      · exact .inr ⟨fine, rfl, outcome⟩

theorem establish_live (live : Live) :
    establish live.world = .ok ((), (establishedLive live).world) := by
  cases estab : live.pcb.proxyestab with
  | true =>
      simp [establish, establishedLive, estab]
  | false =>
      simp only [establish, establishedLive, estab, bind_apply,
        getFwd_live, getPcb_live, ok_bind]
      rfl

theorem tcpProxyIoEvent_cases
    {live : Live} (linked : Linked live) (events : EventMask)
    (recvs : List RecvAnswer) (sends : List SendAnswer)
    (shut : ShutAnswer) :
    (∃ err world,
        tcpProxyIoEvent events recvs sends shut live.world =
            .ok ((), world) ∧
          IoEvent live events shut err world) ∨
      tcpProxyIoEvent events recvs sends shut live.world =
        .error .assertion := by
  cases asserted :
      events.meets epollerr && !events.meets (epollin ||| epollout) &&
        !live.world.env.ndebug with
  | true =>
      refine .inr ?_
      simp only [tcpProxyIoEvent, bind_apply, get_apply, ok_bind,
        asserted, if_true, throw_apply]
  | false =>
      rcases onReadable_cases linked events recvs with
        ⟨err, world, read, ⟨rfl, mid, rfl, readable⟩ |
          ⟨ended, ready, outcome⟩⟩ | failed
      · have midLinked : Linked mid := readable.path.linked linked
        rcases onWritable_cases midLinked events sends shut with
          ⟨err, world, write, ⟨rfl, last, rfl, writable⟩ |
            ⟨ended, ready, outcome⟩⟩
        · refine .inl ⟨.ok, _, ?_, .goesOn readable writable⟩
          simp only [tcpProxyIoEvent, bind_apply, get_apply, ok_bind,
            asserted, Bool.false_eq_true, if_false, read, write,
            if_true]
          exact establish_live last
        · refine .inl ⟨err, world, ?_,
            .writeEnds readable ready outcome ended⟩
          simp only [tcpProxyIoEvent, bind_apply, get_apply, ok_bind,
            asserted, Bool.false_eq_true, if_false, read, write,
            if_true, if_neg ended]
          rfl
      · refine .inl ⟨err, world, ?_, .readEnds ready outcome ended⟩
        simp only [tcpProxyIoEvent, bind_apply, get_apply, ok_bind,
          asserted, Bool.false_eq_true, if_false, read, if_neg ended]
        rfl
      · refine .inr ?_
        simp only [tcpProxyIoEvent, bind_apply, get_apply, ok_bind,
          asserted, Bool.false_eq_true, if_false, failed, error_bind]

end Nsproxy.Core.TcpPaths
