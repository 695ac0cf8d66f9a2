import Mathlib.Tactic.Common
import Nsproxy.Lib.Handlers
import Nsproxy.Lwip.Buffers
import Nsproxy.Lwip.Tcp
import Nsproxy.Skutils

/-!
# The memory of one forwarded TCP connection

A `tcp_forward` ties an lwIP control block to a proxy connection.  `World`
holds the three objects, each absent once it is freed, and every access to a
freed object is a fault.  So is every access of the forwarder to the control
block or the proxy once it has freed the forward, even while lwIP keeps the
control block for the rest of the closing handshake.  `listed` says whether
the forward is on the list which the idle timer walks.

The calls which the forwarder makes to lwIP and to the proxy are written to
`trace`, in order, with what the statements about a run need to know of the
moment of the call.

`Live` is a world in which all three objects exist.  Each access evaluates on
a live world without a fault; these equations are the only ones which the
proofs about the handlers use.
-/

namespace Nsproxy.Core.Memory

open Nsproxy.Lib.Handlers
open Nsproxy.Lwip.Opts
open Nsproxy.Lwip.Buffers
open Nsproxy.Lwip.TcpOut
open Nsproxy.Lwip.Tcp
open Nsproxy.Skutils

/-! ## State -/

/-- `struct tcp_forward`; the list links are `World.listed`. -/
structure TcpForward where
  /-- The pointer to the proxy is not `NULL`. -/
  proxy : Bool
  /-- The pointer to the control block is not `NULL`. -/
  pcb : Bool
  sndq : PbufChain
  rcvq : PbufChain
  gc : Nat
  proxyeof : Bool
  lwipeof : Bool
  proxysendeof : Bool
deriving DecidableEq

namespace TcpForward

/-- The test `fwd->sndq != NULL || fwd->rcvq != NULL`. -/
def undelivered (fwd : TcpForward) : Bool :=
  !fwd.sndq.isNull || !fwd.rcvq.isNull

end TcpForward

/-- The calls of the forwarder and the callbacks it receives. -/
inductive Action where
  | lwipReceived (chain : PbufChain)
  | lwipSent (len : Nat)
  | proxyRecv (answer : RecvAnswer)
  | tcpWrite (data : List UInt8) (sndbuf : Nat) (err : ErrT)
  | tcpShutdown (fwd : TcpForward)
  | proxySend (offered : List UInt8) (result : Except Errno Nat)
  | tcpRecved (len : Nat)
  | proxyShutdown (rst : Bool) (result : ShutAnswer)
  | forwardDestroy (fwd : TcpForward) (force : Bool)
  | tcpAbort
  | tcpClose
  | proxyPut
  | emit (emission : Emission)
  | established

/-- What surrounds the connection: settings, pending answers, history. -/
structure Env where
  noProxyHalfClose : Bool
  /-- Assertions of the forwarder are compiled out. -/
  ndebug : Bool
  /-- `tcp_input_pcb == pcb`. -/
  inputPcb : Bool
  /-- Outcomes of the next `epoll_ctl` calls; further ones succeed. -/
  epoll : List Bool
  /-- Outcomes of the TUN writes of the next `tcp_output` calls. -/
  tun : List (List Bool)
  trace : List Action

/-- The objects of one forwarded connection. -/
structure World where
  fwd : Option TcpForward
  listed : Bool
  pcb : Option TcpPcb
  proxy : Option Proxy
  env : Env

/-- A routine of the forwarder. -/
abbrev Routine (Result : Type) : Type := Handler Fault World Result

/-! ## Access to the objects -/

/-- Use an object which must not have been freed. -/
def alive {Object : Type} : Option Object → Routine Object
  | some object => pure object
  | none => throw .useAfterFree

def getFwd : Routine TcpForward := do
  alive (← get).fwd

/-- The forwarder may use the control block only while it has a forward. -/
def getPcb : Routine TcpPcb := do
  let _ ← getFwd
  alive (← get).pcb

/-- The forwarder may use the proxy only while it has a forward. -/
def getProxy : Routine Proxy := do
  let _ ← getFwd
  alive (← get).proxy

def modifyFwd (change : TcpForward → TcpForward) : Routine Unit := do
  let fwd ← getFwd
  modify fun world => { world with fwd := some (change fwd) }

def modifyPcb (change : TcpPcb → TcpPcb) : Routine Unit := do
  let pcb ← getPcb
  modify fun world => { world with pcb := some (change pcb) }

/-- Append to the history. -/
def record (actions : List Action) : Routine Unit :=
  modify fun world =>
    { world with
      env := { world.env with trace := world.env.trace ++ actions } }

/-! ## Calls to lwIP -/

/-- Take the TUN outcomes of one `tcp_output` call. -/
def nextWrites : Routine (List Bool) := do
  let world ← get
  set { world with env := { world.env with tun := world.env.tun.tail } }
  return world.env.tun.headD []

def callTcpWrite (data : List UInt8) : Routine ErrT := do
  let pcb ← getPcb
  match tcpWrite pcb data with
  | .error fault => throw fault
  | .ok (err, next) => do
      modifyPcb fun _ => next
      record [.tcpWrite data pcb.tcpSndbuf err]
      return err

def callTcpOutput : Routine Unit := do
  let pcb ← getPcb
  let writes ← nextWrites
  let result := (tcpOutput (← get).env.inputPcb writes pcb).2
  modifyPcb fun _ => result.1
  record (result.2.map .emit)

def callTcpRecved (len : Nat) : Routine Unit := do
  let pcb ← getPcb
  let writes ← nextWrites
  let result := tcpRecved (← get).env.inputPcb writes pcb len
  modifyPcb fun _ => result.1
  record (.tcpRecved len :: result.2.map .emit)

/-- `tcp_shutdown(pcb, 0, 1)`. -/
def callTcpShutdown : Routine Unit := do
  let fwd ← getFwd
  let pcb ← getPcb
  let writes ← nextWrites
  let result := tcpShutdown (← get).env.inputPcb writes pcb
  modifyPcb fun _ => result.1
  record (.tcpShutdown fwd :: result.2.map .emit)

/-- `tcp_abort`: the control block is freed. -/
def callTcpAbort : Routine Unit := do
  let pcb ← getPcb
  modify fun world => { world with pcb := none }
  record (.tcpAbort :: (abortEmission pcb).map .emit)

def callTcpClose : Routine ErrT := do
  let pcb ← getPcb
  let writes ← nextWrites
  let result := tcpClose (← get).env.inputPcb writes pcb
  modify fun world => { world with pcb := result.2.1 }
  record (.tcpClose :: result.2.2.map .emit)
  return result.1

/-! ## Calls to the proxy -/

/-- Take the outcome of one `epoll_ctl` call. -/
def nextEpoll : Routine Bool := do
  let world ← get
  set
    { world with
      env := { world.env with epoll := world.env.epoll.tail } }
  return world.env.epoll.headD true

def callProxyRecv (answer : RecvAnswer) (size : Nat) :
    Routine RecvAnswer := do
  let proxy ← getProxy
  record [.proxyRecv (proxy.recv answer size)]
  return proxy.recv answer size

def callProxySend (answer : SendAnswer) (data : List UInt8) :
    Routine (Except Errno Nat) := do
  let proxy ← getProxy
  record [.proxySend data (proxy.send answer data.length)]
  return proxy.send answer data.length

def callProxyEvctl (mask : EventMask) (mode : EvMode) : Routine Unit := do
  let proxy ← getProxy
  let accepted ← nextEpoll
  modify fun world =>
    { world with proxy := some (proxy.evctl accepted mask mode) }

/-- `SHUT_WR` without reset, or `SHUT_RDWR` with it. -/
def callProxyShutdown (answer : ShutAnswer) (rst : Bool) :
    Routine ShutAnswer := do
  let proxy ← getProxy
  record [.proxyShutdown rst (proxy.shutdown answer rst)]
  return proxy.shutdown answer rst

/-- `proxy_put`: the forward holds the only reference. -/
def callProxyPut : Routine Unit := do
  let _ ← getProxy
  modify fun world => { world with proxy := none }
  record [.proxyPut]

/-! ## Live worlds -/

/-- A world in which the forward, its control block and its proxy exist. -/
structure Live where
  fwd : TcpForward
  pcb : TcpPcb
  proxy : Proxy
  env : Env

namespace Live

/-- The world of three living objects. -/
def world (live : Live) : World where
  fwd := some live.fwd
  listed := true
  pcb := some live.pcb
  proxy := some live.proxy
  env := live.env

def modifyFwd (live : Live) (change : TcpForward → TcpForward) : Live :=
  { live with fwd := change live.fwd }

def modifyPcb (live : Live) (change : TcpPcb → TcpPcb) : Live :=
  { live with pcb := change live.pcb }

def record (live : Live) (actions : List Action) : Live :=
  { live with
    env := { live.env with trace := live.env.trace ++ actions } }

/-- The world with the TUN outcomes of one call taken. -/
def takeWrites (live : Live) : Live :=
  { live with env := { live.env with tun := live.env.tun.tail } }

def output (live : Live) : Live :=
  let result :=
    (tcpOutput live.env.inputPcb
      (live.env.tun.headD []) live.pcb).2
  (live.takeWrites.modifyPcb fun _ => result.1).record
    (result.2.map .emit)

def recved (live : Live) (len : Nat) : Live :=
  let result :=
    tcpRecved live.env.inputPcb
      (live.env.tun.headD []) live.pcb len
  (live.takeWrites.modifyPcb fun _ => result.1).record
    (.tcpRecved len :: result.2.map .emit)

def shutdown (live : Live) : Live :=
  let result :=
    tcpShutdown live.env.inputPcb
      (live.env.tun.headD []) live.pcb
  (live.takeWrites.modifyPcb fun _ => result.1).record
    (.tcpShutdown live.fwd :: result.2.map .emit)

def evctl (live : Live) (mask : EventMask) (mode : EvMode) : Live :=
  { live with
    proxy := live.proxy.evctl (live.env.epoll.headD true) mask mode
    env := { live.env with epoll := live.env.epoll.tail } }

end Live

theorem Live.world_injective
    {first second : Live} (same : first.world = second.world) :
    first = second := by
  cases first
  cases second
  cases same
  rfl

@[simp]
theorem getFwd_live (live : Live) :
    getFwd live.world = .ok (live.fwd, live.world) :=
  rfl

@[simp]
theorem getPcb_live (live : Live) :
    getPcb live.world = .ok (live.pcb, live.world) :=
  rfl

@[simp]
theorem modifyFwd_live (live : Live) (change : TcpForward → TcpForward) :
    modifyFwd change live.world =
      .ok ((), (live.modifyFwd change).world) :=
  rfl

@[simp]
theorem modifyPcb_live (live : Live) (change : TcpPcb → TcpPcb) :
    modifyPcb change live.world =
      .ok ((), (live.modifyPcb change).world) :=
  rfl

@[simp]
theorem record_live (live : Live) (actions : List Action) :
    record actions live.world = .ok ((), (live.record actions).world) :=
  rfl

theorem callTcpWrite_live
    {live : Live} {data : List UInt8} {err : ErrT} {next : TcpPcb}
    (written : tcpWrite live.pcb data = .ok (err, next)) :
    callTcpWrite data live.world =
      .ok (err,
        ((live.modifyPcb fun _ => next).record
          [.tcpWrite data live.pcb.tcpSndbuf err]).world) := by
  simp only [callTcpWrite, bind_apply, getPcb_live, ok_bind, written]
  rfl

theorem callTcpWrite_fault
    {live : Live} {data : List UInt8} {fault : Fault}
    (failed : tcpWrite live.pcb data = .error fault) :
    callTcpWrite data live.world = .error fault := by
  simp only [callTcpWrite, bind_apply, getPcb_live, ok_bind, failed]
  rfl

@[simp]
theorem callTcpOutput_live (live : Live) :
    callTcpOutput live.world = .ok ((), live.output.world) :=
  rfl

@[simp]
theorem callTcpRecved_live (live : Live) (len : Nat) :
    callTcpRecved len live.world = .ok ((), (live.recved len).world) :=
  rfl

@[simp]
theorem callTcpShutdown_live (live : Live) :
    callTcpShutdown live.world = .ok ((), live.shutdown.world) :=
  rfl

@[simp]
theorem callProxyRecv_live
    (live : Live) (answer : RecvAnswer) (size : Nat) :
    callProxyRecv answer size live.world =
      .ok (live.proxy.recv answer size,
        (live.record
          [.proxyRecv (live.proxy.recv answer size)]).world) :=
  rfl

@[simp]
theorem callProxySend_live
    (live : Live) (answer : SendAnswer) (data : List UInt8) :
    callProxySend answer data live.world =
      .ok (live.proxy.send answer data.length,
        (live.record
          [.proxySend data
            (live.proxy.send answer data.length)]).world) :=
  rfl

@[simp]
theorem callProxyEvctl_live
    (live : Live) (mask : EventMask) (mode : EvMode) :
    callProxyEvctl mask mode live.world =
      .ok ((), (live.evctl mask mode).world) :=
  rfl

@[simp]
theorem callProxyShutdown_live
    (live : Live) (answer : ShutAnswer) (rst : Bool) :
    callProxyShutdown answer rst live.world =
      .ok (live.proxy.shutdown answer rst,
        (live.record
          [.proxyShutdown rst
            (live.proxy.shutdown answer rst)]).world) :=
  rfl

end Nsproxy.Core.Memory
