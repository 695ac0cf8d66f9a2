import Mathlib.Tactic.Common
import Nsproxy.Core.Memory

/-!
# The handlers of a forwarded TCP connection

The functions of `core.c` between `tcp_forward_create` and `core_gc_tmr`,
as routines over the memory of one connection.

The two transfer loops call the proxy until it says `EAGAIN`.  A loop takes
the list of answers which the proxy will give and recurses over it; when the
list is used up the proxy has no more to give and answers `EAGAIN`.  One
round of each loop is a definition of its own, and tells whether the loop
goes on, is left, or returns from the function.
-/

namespace Nsproxy.Core.TcpHandlers

open Nsproxy.Lib.Handlers
open Nsproxy.Lwip.Opts
open Nsproxy.Lwip.Buffers
open Nsproxy.Lwip.TcpOut
open Nsproxy.Lwip.Tcp
open Nsproxy.Skutils
open Nsproxy.Core.Memory

/-! ## Destruction -/

/--
The part of `tcp_forward_destroy` about the control block; `rst` is the test
`force || rst` of the source.
-/
def destroyPcb (fwd : TcpForward) (rst : Bool) : Routine Unit := do
  if fwd.pcb then
    modifyPcb fun pcb => { pcb with callbacks := false }
    if rst then
      callTcpAbort
    else
      let err ← callTcpClose
      if err ≠ .ok then
        callTcpAbort

/-- The part of `tcp_forward_destroy` about the proxy. -/
def destroyProxy (fwd : TcpForward) (rst : Bool) : Routine Unit := do
  if fwd.proxy then
    if rst then
      let _ ← callProxyShutdown .ok true
    callProxyPut

/-- `tcp_forward_destroy`. -/
def tcpForwardDestroy (force : Bool) : Routine Unit := do
  let fwd ← getFwd
  record [.forwardDestroy fwd force]
  modify fun world => { world with listed := false }
  destroyPcb fwd (force || fwd.undelivered)
  destroyProxy fwd (force || fwd.undelivered)
  modify fun world => { world with fwd := none }

/-! ## From the proxy to the application -/

/-- How one round of a transfer loop ends. -/
inductive Round where
  | again
  | leave
  | done (err : ErrT)
deriving DecidableEq, Repr

/-- The condition of the loop in `tcp_proxy_input`. -/
def mayRead (fwd : TcpForward) (pcb : TcpPcb) : Bool :=
  !fwd.proxyeof && decide (pcb.mss < pcb.tcpSndbuf) &&
    decide (pcb.sndQueuelen ≤ tcpSndQueuelen / 2)

/-- Put a freshly written buffer on the send queue. -/
def enqueueSent (fwd : TcpForward) (bytes : List UInt8) : TcpForward :=
  { fwd with
    sndq :=
      if fwd.sndq.isNull then PbufChain.pbufAlloc bytes
      else fwd.sndq.pbufCat (PbufChain.pbufAlloc bytes) }

/-- The body of the loop in `tcp_proxy_input`. -/
def tcpProxyInputRound (answer : RecvAnswer) : Routine Round := do
  let pcb ← getPcb
  match ← callProxyRecv answer pcb.mss with
  | .err errno =>
      if errno = .eagain then
        callProxyEvctl epollin .set
        return .done .ok
      else
        tcpForwardDestroy true
        return .done .abrt
  | .data [] =>
      modifyFwd fun fwd => { fwd with proxyeof := true }
      return .leave
  | .data (byte :: rest) =>
      let err ← callTcpWrite (byte :: rest)
      if err ≠ .ok then
        tcpForwardDestroy true
        return .done .abrt
      else
        modifyFwd fun fwd => enqueueSent fwd (byte :: rest)
        callTcpOutput
        return .again

/-- The loop of `tcp_proxy_input`; `none` when it was left. -/
def tcpProxyInputLoop : List RecvAnswer → Routine (Option ErrT)
  | [] => do
      if mayRead (← getFwd) (← getPcb) then
        match ← tcpProxyInputRound (.err .eagain) with
        | .done err => return some err
        | _ => return none
      else
        return none
  | answer :: rest => do
      if mayRead (← getFwd) (← getPcb) then
        match ← tcpProxyInputRound answer with
        | .again => tcpProxyInputLoop rest
        | .leave => return none
        | .done err => return some err
      else
        return none

/-- `tcp_proxy_input`. -/
def tcpProxyInput (answers : List RecvAnswer) : Routine ErrT := do
  modifyFwd fun fwd => { fwd with gc := nsproxyTcpIdleTimeout }
  match ← tcpProxyInputLoop answers with
  | some err => return err
  | none =>
      callProxyEvctl epollin .clr
      let fwd ← getFwd
      if fwd.proxyeof && fwd.sndq.isNull then
        callTcpShutdown
        if fwd.lwipeof && fwd.rcvq.isNull then
          tcpForwardDestroy false
          return .clsd
        else
          return .ok
      else
        return .ok

/-! ## From the application to the proxy -/

/-- The payload of the first buffer of a chain. -/
def firstPayload (chain : PbufChain) : List UInt8 :=
  match chain.pbufs with
  | [] => []
  | pbuf :: _ => pbuf.payload

/-- The body of the loop in `tcp_proxy_output`. -/
def tcpProxyOutputRound (answer : SendAnswer) : Routine Round := do
  let fwd ← getFwd
  match ← callProxySend answer (firstPayload fwd.rcvq) with
  | .error errno =>
      if errno = .eagain then
        callProxyEvctl epollout .set
        return .done .ok
      else
        tcpForwardDestroy true
        return .done .abrt
  | .ok nsent =>
      modifyFwd fun fwd =>
        { fwd with rcvq := fwd.rcvq.pbufFreeHeader nsent }
      callTcpRecved nsent
      return .again

/-- The loop of `tcp_proxy_output`; `none` when it was left. -/
def tcpProxyOutputLoop : List SendAnswer → Routine (Option ErrT)
  | [] => do
      if (← getFwd).rcvq.isNull then
        return none
      else
        match ← tcpProxyOutputRound (.err .eagain) with
        | .done err => return some err
        | _ => return none
  | answer :: rest => do
      if (← getFwd).rcvq.isNull then
        return none
      else
        match ← tcpProxyOutputRound answer with
        | .again => tcpProxyOutputLoop rest
        | .leave => return none
        | .done err => return some err

/-- The end of `tcp_proxy_output`, once the proxy knows of the EOF. -/
def tcpProxyOutputClose : Routine ErrT := do
  modifyFwd fun fwd => { fwd with proxysendeof := true }
  let fwd ← getFwd
  if fwd.proxyeof && fwd.sndq.isNull then
    tcpForwardDestroy false
    return .clsd
  else
    return .ok

/-- The part of `tcp_proxy_output` which passes the EOF to the proxy. -/
def tcpProxyOutputEof (shut : ShutAnswer) : Routine ErrT := do
  if (← get).env.noProxyHalfClose then
    tcpProxyOutputClose
  else
    match ← callProxyShutdown shut false with
    | .err errno =>
        if errno = .eagain then
          callProxyEvctl epollout .set
          return .ok
        else
          tcpForwardDestroy true
          return .abrt
    | .ok => tcpProxyOutputClose

/-- `tcp_proxy_output`. -/
def tcpProxyOutput (answers : List SendAnswer) (shut : ShutAnswer) :
    Routine ErrT := do
  modifyFwd fun fwd => { fwd with gc := nsproxyTcpIdleTimeout }
  match ← tcpProxyOutputLoop answers with
  | some err => return err
  | none =>
      callProxyEvctl epollout .clr
      let fwd ← getFwd
      if fwd.lwipeof && !fwd.proxysendeof then
        tcpProxyOutputEof shut
      else
        return .ok

/-! ## Callbacks -/

/-- The condition under which `tcp_lwip_sent` asks the proxy for more. -/
def asksMore (pcb : TcpPcb) : Prop :=
  tcpwnd16 (tcpSndBuf / 2) ≤ pcb.tcpSndbuf ∧
    pcb.sndQueuelen ≤ tcpSndQueuelen / 2

instance (pcb : TcpPcb) : Decidable (asksMore pcb) :=
  inferInstanceAs (Decidable (_ ∧ _))

/-- `tcp_lwip_sent`. -/
def tcpLwipSent (len : UInt16) (answers : List RecvAnswer) :
    Routine ErrT := do
  record [.lwipSent len.toNat]
  modifyFwd fun fwd =>
    { fwd with sndq := fwd.sndq.pbufFreeHeader len.toNat }
  let pcb ← getPcb
  if asksMore pcb then
    tcpProxyInput answers
  else
    return .ok

/-- Put a received chain on the receive queue. -/
def enqueueReceived (fwd : TcpForward) (chain : PbufChain) :
    TcpForward :=
  { fwd with
    rcvq :=
      if fwd.rcvq.isNull then chain else fwd.rcvq.pbufCat chain }

/-- `tcp_lwip_received`; the `NULL` chain is the end of the stream. -/
def tcpLwipReceived
    (chain : PbufChain) (answers : List SendAnswer) (shut : ShutAnswer) :
    Routine ErrT := do
  record [.lwipReceived chain]
  modifyFwd fun fwd =>
    if chain.isNull then { fwd with lwipeof := true }
    else enqueueReceived fwd chain
  let err ← tcpProxyOutput answers shut
  if err = .ok then
    modifyPcb tcpAck
    return err
  else
    return err

/-- `tcp_lwip_err`: lwIP has given up the control block. -/
def tcpLwipErr : Routine Unit := do
  modifyFwd fun fwd => { fwd with pcb := false }
  tcpForwardDestroy true

/-- Read from the proxy if the mask says so. -/
def onReadable (events : EventMask) (answers : List RecvAnswer) :
    Routine ErrT :=
  if events.meets epollin then tcpProxyInput answers else return .ok

/-- Write to the proxy if the mask says so. -/
def onWritable
    (events : EventMask) (answers : List SendAnswer) (shut : ShutAnswer) :
    Routine ErrT :=
  if events.meets epollout then tcpProxyOutput answers shut
  else return .ok

/-- The end of `tcp_proxy_io_event`: send the delayed SYN+ACK. -/
def establish : Routine Unit := do
  let _ ← getFwd
  let pcb ← getPcb
  if pcb.proxyestab then
    return ()
  else
    modifyPcb fun pcb => { pcb with proxyestab := true }
    record [.established]
    callTcpOutput

/-- `tcp_proxy_io_event`. -/
def tcpProxyIoEvent
    (events : EventMask) (recvs : List RecvAnswer)
    (sends : List SendAnswer) (shut : ShutAnswer) :
    Routine Unit := do
  let world ← get
  if events.meets epollerr && !events.meets (epollin ||| epollout) &&
      !world.env.ndebug then
    throw .assertion
  else
    let err ← onReadable events recvs
    if err = .ok then
      let err ← onWritable events sends shut
      if err = .ok then
        establish

/-- `core_gc_tmr`, for the one connection. -/
def coreGcTmr : Routine Unit := do
  let fwd ← getFwd
  if fwd.gc = 0 then
    tcpForwardDestroy true
  else
    modifyFwd fun fwd => { fwd with gc := fwd.gc - 1 }

/-! ## Creation -/

/-- A new `tcp_forward` for a control block. -/
def freshForward : TcpForward where
  proxy := false
  pcb := true
  sndq := .null
  rcvq := .null
  gc := nsproxyTcpIdleTimeout
  proxyeof := false
  lwipeof := false
  proxysendeof := false

/--
`core_tcp_new`, given the proxy which the chosen route creates, or `none` if
it cannot be created.
-/
def coreTcpNew (created : Option Proxy) : Routine ErrT := do
  modify fun world =>
    { world with fwd := some freshForward, listed := true }
  modifyPcb fun pcb => { pcb with callbacks := true }
  match created with
  | none =>
      tcpForwardDestroy true
      return .abrt
  | some proxy =>
      modify fun world => { world with proxy := some proxy }
      modifyFwd fun fwd => { fwd with proxy := true }
      return .ok

end Nsproxy.Core.TcpHandlers
