import Mathlib.Tactic.Common
import Nsproxy.Conf
import Nsproxy.Lib.Transition
import Nsproxy.Lwip.Buffers
import Nsproxy.Lwip.Opts
import Nsproxy.Skutils
import Nsproxy.Socks

/-!
# UDP flows and the SOCKS5 association

The functions of `core.c` about UDP: new flows, their datagrams, the
association with the SOCKS5 server on which they wait, and the timers.

`CoreCtx` is the part of `struct corectx` which they share, with the answers of
the kernel at hand and the history of what was asked of it.  A forward on the
list has a number of its own, which stands for its address.  A function which
may destroy a forward returns what is left of it.  A pointer which is `NULL`
when it is used is a fault.

What a DNS response adds to the table of CIDR blocks is part of the datagram
here.  Nothing in this module reads the interest masks of the UDP sockets.
-/

namespace Nsproxy.Core.UdpFlows

open Nsproxy.Conf
open Nsproxy.Lib.Transition
open Nsproxy.Lwip.Opts
open Nsproxy.Lwip.Buffers
open Nsproxy.Skutils
open Nsproxy.Socks

/-! ## State -/

/-- The proxy object of a flow. -/
inductive UdpProxy where
  | direct (addr : Text) (port : UInt16)
  /-- A socket connected to the relay of the numbered association. -/
  | socks (assoc : Nat) (self : ProxySocks)
  | tcpdns
deriving DecidableEq

/--
`struct udp_forward`.  `rcvq` holds the first `nrcvq` entries of the array;
the pointer `pcb` is replaced by the destination of the flow.
-/
structure UdpForward where
  number : Nat
  proxy : Option UdpProxy
  localIp : IpAddr
  localPort : UInt16
  rcvq : List PbufChain
  gc : Nat
deriving DecidableEq

inductive Proto where
  | tcp
  | udp
deriving DecidableEq, Repr

/-- For whom a connection is made. -/
inductive Purpose where
  | flow (proto : Proto) (addr : IpAddr) (port : UInt16)
  /-- A query which `tcpdns` forwards. -/
  | query
deriving DecidableEq, Repr

/-- How a connection is made. -/
inductive Via where
  | direct (addr : Text) (port : UInt16)
  | socks (addr : Text) (port : UInt16)
  | relay (addr : Text) (port : UInt16)
  | http (addr : Text) (port : UInt16)
deriving DecidableEq, Repr

/-- What is asked of the kernel, and what the association goes through. -/
inductive CoreAction where
  /-- A connection is made under this configuration. -/
  | connect (purpose : Purpose) (via : Via) (conf : Nspconf)
  /-- `socks_assoc_create` was called; `made` tells whether it succeeded. -/
  | assocCreate (made : Bool)
  /-- The association object was released. -/
  | assocPut
  /-- An attempt or an established association has failed. -/
  | assocFailed
  | assocReady
  /-- `core_reassoc_tmr` was called. -/
  | reassocTick
deriving DecidableEq

/-- The answers of the kernel while an event is handled. -/
structure KernelAnswers where
  /-- Outcomes of the next `skutils_connect` calls; further ones succeed. -/
  connects : List Bool
  /-- Outcomes of the next datagrams; further ones are sent. -/
  sends : List SendAnswer
  evfd : Bool
  epoll : Bool
deriving DecidableEq

/-- The association object, with the number of the call that made it. -/
structure Assoc where
  number : Nat
  self : ProxySocks
deriving DecidableEq

/-- `struct corectx`, as far as UDP is concerned. -/
structure CoreCtx where
  conf : Nspconf
  udplst : List UdpForward
  udpassoc : Option Assoc
  assocretries : UInt32
  assoccd : Nat
  assocready : Bool
  /-- The number of the next forward. -/
  nextForward : Nat
  /-- The number of the next association. -/
  nextAssoc : Nat
  answers : KernelAnswers
  trace : List CoreAction
deriving DecidableEq

/-- Append to the history. -/
def CoreCtx.record (core : CoreCtx) (actions : List CoreAction) : CoreCtx :=
  { core with trace := core.trace ++ actions }

/-! ## Connections -/

/-- `skutils_connect`, on behalf of `purpose`. -/
def callConnect (purpose : Purpose) (via : Via) (core : CoreCtx) :
    Bool × CoreCtx :=
  (core.answers.connects.headD true,
    { core with
      answers :=
        { core.answers with connects := core.answers.connects.tail }
      trace := core.trace ++ [.connect purpose via core.conf] })

/-- Who the flow of a forward is. -/
def UdpForward.purpose (fwd : UdpForward) : Purpose :=
  .flow .udp fwd.localIp fwd.localPort

/-- `direct_udp_create`. -/
def directUdpCreate
    (fwd : UdpForward) (addr : Text) (port : UInt16) (core : CoreCtx) :
    Option UdpProxy × CoreCtx :=
  if servnameMaxlen < addr.length then
    (none, core)
  else
    match callConnect fwd.purpose (.direct addr port) core with
    | (true, next) => (some (.direct addr port), next)
    | (false, next) => (none, next)

/-- `socks_udp_create`. -/
def relayCreate
    (fwd : UdpForward) (assoc : Assoc) (addr : Text) (port : UInt16)
    (core : CoreCtx) : Option UdpProxy × CoreCtx :=
  if assoc.self.phase ≠ .forwarding ∨ assoc.self.relay = none ∨
      servnameMaxlen < addr.length then
    (none, core)
  else
    match callConnect fwd.purpose (.relay addr port) core with
    | (connected, next) =>
        ((socksUdpCreate assoc.self addr port connected
            core.answers.epoll).map (.socks assoc.number),
          next)

/-! ## Datagrams -/

/-- The size of the buffer of a `tcpdns` worker. -/
def workerBuffer : Nat := 4096

/-- How `tcpdns_send` reaches the nameserver. -/
def queryVia (conf : Nspconf) : Via :=
  match conf.proxytype with
  | .socks5 => .socks conf.dnssrv conf.dnsport
  | .http => .http conf.dnssrv conf.dnsport
  | .direct => .direct conf.dnssrv conf.dnsport

/-- `tcpdns_send`, as far as a worker is made for the query. -/
def tcpdnsSend (data : List UInt8) (core : CoreCtx) : Bool × CoreCtx :=
  if workerBuffer < data.length + 2 then
    (false, core)
  else if servnameMaxlen < core.conf.dnssrv.length then
    (false, core)
  else
    callConnect .query (queryVia core.conf) core

/--
`proxy_send` on a datagram: whether it was sent or is to be ignored, for
`EAGAIN` is no error here.
-/
def udpProxySend (proxy : UdpProxy) (data : List UInt8) (core : CoreCtx) :
    Bool × CoreCtx :=
  match proxy with
  | .tcpdns => tcpdnsSend data core
  | _ =>
      let rest :=
        { core with
          answers :=
            { core.answers with sends := core.answers.sends.tail } }
      match core.answers.sends.headD (.accept 0) with
      | .accept _ => (true, rest)
      | .err errno => (decide (errno = .eagain), rest)

/-- The loop of `udp_proxy_output`; false after an error. -/
def sendAll (proxy : UdpProxy) : List PbufChain → CoreCtx → Bool × CoreCtx
  | [], core => (true, core)
  | chain :: rest, core =>
      match udpProxySend proxy chain.bytes core with
      | (true, next) => sendAll proxy rest next
      | (false, next) => (false, next)

/-- How long a flow may be idle. -/
def idleTimeout (port : UInt16) : Nat :=
  if port = 53 then nsproxyDnsIdleTimeout else nsproxyUdpIdleTimeout

/-- `udp_proxy_output`: what is left of the forward. -/
def udpProxyOutput (proxy : UdpProxy) (fwd : UdpForward) (core : CoreCtx) :
    Option UdpForward × CoreCtx :=
  match sendAll proxy fwd.rcvq core with
  | (true, next) =>
      (some { fwd with gc := idleTimeout fwd.localPort, rcvq := [] },
        next)
  | (false, next) => (none, next)

/-- The length of the array `rcvq`. -/
def rcvqLen : Nat := 8

/-- Put a datagram on the receive queue; the oldest one makes room. -/
def enqueueDatagram (fwd : UdpForward) (chain : PbufChain) : UdpForward :=
  { fwd with
    rcvq :=
      if fwd.rcvq.length = rcvqLen then fwd.rcvq.tail ++ [chain]
      else fwd.rcvq ++ [chain] }

/-- `udp_lwip_received`. -/
def udpLwipReceived
    (chain : PbufChain) (fwd : UdpForward) (core : CoreCtx) :
    Option UdpForward × CoreCtx :=
  if chain.isNull then
    (none, core)
  else
    match fwd.proxy with
    | none => (some (enqueueDatagram fwd chain), core)
    | some proxy => udpProxyOutput proxy (enqueueDatagram fwd chain) core

/-- One answer of the kernel in the loop of `udp_proxy_input`. -/
structure Incoming where
  answer : RecvAnswer
  /-- What `dns_response_add_direct_cidrs` makes of the datagram. -/
  blocks : List CidrBlock
  /-- The result of `udp_send`. -/
  sent : ErrT
deriving DecidableEq

/-- The rules which a DNS response adds. -/
def dnsResponseAddDirectCidrs (blocks : List CidrBlock) (core : CoreCtx) :
    CoreCtx :=
  { core with conf := blocks.foldl nspconfAddDirectCidrRaw core.conf }

/-- The loop of `udp_proxy_input`; false when the forward is destroyed. -/
def udpProxyInputLoop (fwd : UdpForward) :
    List Incoming → CoreCtx → Bool × CoreCtx
  | [], core => (true, core)
  | incoming :: rest, core =>
      match incoming.answer with
      | .err errno => (decide (errno = .eagain), core)
      | .data _ =>
          let next :=
            if fwd.localPort = 53 then
              dnsResponseAddDirectCidrs incoming.blocks core
            else
              core
          if incoming.sent ≠ .ok ∧ incoming.sent ≠ .mem then
            (false, next)
          else
            udpProxyInputLoop fwd rest next

/-- `udp_proxy_input`. -/
def udpProxyInput
    (incoming : List Incoming) (fwd : UdpForward) (core : CoreCtx) :
    Option UdpForward × CoreCtx :=
  match udpProxyInputLoop fwd incoming core with
  | (true, next) =>
      (some { fwd with gc := idleTimeout fwd.localPort }, next)
  | (false, next) => (none, next)

/-- Go on with a forward which was not destroyed. -/
def andThen
    (result : Option UdpForward × CoreCtx)
    (next : UdpForward → CoreCtx → Option UdpForward × CoreCtx) :
    Option UdpForward × CoreCtx :=
  match result with
  | (none, core) => (none, core)
  | (some fwd, core) => next fwd core

/-- Run a function if the mask has one of the bits. -/
def onEvents
    (events bits : EventMask)
    (run : UdpForward → CoreCtx → Option UdpForward × CoreCtx)
    (fwd : UdpForward) (core : CoreCtx) : Option UdpForward × CoreCtx :=
  if events.meets bits then run fwd core else (some fwd, core)

/-- `udp_forward_destroy`. -/
def udpForwardDestroy (_fwd : UdpForward) (core : CoreCtx) :
    Option UdpForward × CoreCtx :=
  (none, core)

/-- `udp_proxy_io_event`. -/
def udpProxyIoEvent
    (events : EventMask) (incoming : List Incoming) (proxy : UdpProxy)
    (fwd : UdpForward) (core : CoreCtx) : Option UdpForward × CoreCtx :=
  andThen
    (andThen (onEvents events epollin (udpProxyInput incoming) fwd core)
      (onEvents events epollout (udpProxyOutput proxy)))
    (onEvents events epollerr udpForwardDestroy)

/-! ## The association -/

/-- The countdown after a failure: `1 << cdexp`. -/
def backoff (retries : UInt32) : Nat := 2 ^ min retries.toNat 5

/-- `core_start_udp_assoc`. -/
def coreStartUdpAssoc (core : CoreCtx) : CoreCtx :=
  if core.udpassoc.isSome || core.assocready ||
      core.conf.proxytype != .socks5 then
    core
  else if 0 < core.assoccd then
    core
  else
    let connected := core.answers.connects.headD true
    let next :=
      { core with
        answers :=
          { core.answers with connects := core.answers.connects.tail }
        nextAssoc := core.nextAssoc + 1
        assocretries := core.assocretries + 1 }
    match socksAssocCreate connected core.answers.epoll with
    | some self =>
        { next with udpassoc := some ⟨core.nextAssoc, self⟩ }.record
          [.assocCreate true]
    | none =>
        { next with assoccd := backoff next.assocretries }.record
          [.assocCreate false, .assocFailed]

/-- `core_has_pending_udp_assoc`. -/
def coreHasPendingUdpAssoc (core : CoreCtx) : Bool :=
  core.udplst.any fun fwd => fwd.proxy.isNone

/-- The failing branch of `udp_assoc_io_event`. -/
def assocLost (core : CoreCtx) : Except Fault CoreCtx :=
  match core.udpassoc with
  | none => .error .useAfterFree
  | some _ =>
      .ok
        ({ core with
            udpassoc := none
            assocready := false
            assoccd := backoff core.assocretries
            udplst :=
              core.udplst.filter fun fwd => fwd.proxy.isSome }.record
          [.assocPut, .assocFailed])

/-- The proxy object which a pending forward is given. -/
def pendingProxy (inet : Inet) (fwd : UdpForward) (core : CoreCtx) :
    Except Fault (Option UdpProxy × CoreCtx) :=
  if isDirectCidrTarget core.conf fwd.localIp then
    .ok
      (directUdpCreate fwd (inet.ntoa fwd.localIp) fwd.localPort core)
  else
    match core.udpassoc with
    | none => .error .useAfterFree
    | some assoc =>
        .ok
          (relayCreate fwd assoc (inet.ntoa fwd.localIp) fwd.localPort
            core)

/-- What becomes of a pending forward when the association succeeds. -/
def settlePending (inet : Inet) (fwd : UdpForward) (core : CoreCtx) :
    Except Fault (Option UdpForward × CoreCtx) :=
  match pendingProxy inet fwd core with
  | .error fault => .error fault
  | .ok (none, next) => .ok (none, next)
  | .ok (some proxy, next) =>
      let connected := { fwd with proxy := some proxy }
      if fwd.rcvq ≠ [] then
        .ok (udpProxyOutput proxy connected next)
      else
        .ok (some connected, next)

/-- The loop over the forwards when the association succeeds. -/
def settle (inet : Inet) :
    List UdpForward → CoreCtx → Except Fault (List UdpForward × CoreCtx)
  | [], core => .ok ([], core)
  | fwd :: rest, core =>
      if fwd.proxy.isSome then
        match settle inet rest core with
        | .error fault => .error fault
        | .ok (kept, last) => .ok (fwd :: kept, last)
      else
        match settlePending inet fwd core with
        | .error fault => .error fault
        | .ok (left, next) =>
            match settle inet rest next with
            | .error fault => .error fault
            | .ok (kept, last) => .ok (left.toList ++ kept, last)

/-- The successful branch of `udp_assoc_io_event`. -/
def assocSucceeds (inet : Inet) (core : CoreCtx) : Except Fault CoreCtx :=
  match core.udpassoc with
  | none => .error .useAfterFree
  | some assoc =>
      let cleared :=
        if assoc.self.phase = .forwarding then
          { assoc.self with
            events :=
              skutilsEvctl core.answers.epoll assoc.self.events epollout
                .clr }
        else
          assoc.self
      let ready :=
        { core with
          udpassoc := some { assoc with self := cleared }
          assocready := true
          assocretries := 0 }.record [.assocReady]
      match settle inet ready.udplst ready with
      | .error fault => .error fault
      | .ok (kept, last) => .ok { last with udplst := kept }

/-- `udp_assoc_io_event`. -/
def udpAssocIoEvent (inet : Inet) (events : EventMask) (core : CoreCtx) :
    Except Fault CoreCtx :=
  if events.meets (epollin ||| epollerr ||| epollhup) then
    assocLost core
  else
    assocSucceeds inet core

/-- An event of the socket of the association: `socks_epcb_events`. -/
def assocEpollEvent
    (inet : Inet) (events : EventMask) (handshake : HandshakeAnswers)
    (core : CoreCtx) : Except Fault CoreCtx :=
  match core.udpassoc with
  | none => .error .useAfterFree
  | some assoc =>
      match socksEpcbEvents core.conf inet handshake events assoc.self
      with
      | .error fault => .error fault
      | .ok (self, told) =>
          let next :=
            { core with udpassoc := some { assoc with self := self } }
          match told with
          | none => .ok next
          | some mask => udpAssocIoEvent inet mask next

/-! ## New flows -/

/-- `NSPROXY_GATEWAY_IP`. -/
def gatewayIp : IpAddr := .v4 #v[100, 64, 1, 1]

/--
The IPv6 address of the TUN device: `NSPROXY_GATEWAY_IPV6`, or the zero
address when IPv6 is not enabled.
-/
def gatewayIpv6 (conf : Nspconf) : IpAddr :=
  if conf.ipv6 then
    .v6 #v[0xfd, 0, 1, 0, 0, 0x64, 0, 1, 0, 0, 0, 0, 0, 0, 0, 1]
  else
    .v6 #v[0, 0, 0, 0, 0, 0, 0, 0, 0, 0, 0, 0, 0, 0, 0, 0]

/-- `is_gateway`. -/
def isGateway (conf : Nspconf) (addr : IpAddr) : Bool :=
  decide (addr = gatewayIp) || decide (addr = gatewayIpv6 conf)

/-- The address of the host for a flow to the gateway. -/
def localhost : IpAddr → Text
  | .v4 _ => ascii "127.0.0.1"
  | .v6 _ => ascii "::1"

/-- `udp_forward_create`, for a new flow. -/
def udpForwardCreate (addr : IpAddr) (port : UInt16) (core : CoreCtx) :
    UdpForward where
  number := core.nextForward
  proxy := none
  localIp := addr
  localPort := port
  rcvq := []
  gc := idleTimeout port

/-- Where `core_udp_new` sends a flow which does not wait. -/
def udpRoute (inet : Inet) (fwd : UdpForward) (core : CoreCtx) :
    Except Fault (Option UdpProxy × CoreCtx) :=
  let conf := core.conf
  let addr := fwd.localIp
  let port := fwd.localPort
  if isGateway conf addr && decide (port = 53) &&
      decide (conf.dnstype ≠ .off) then
    if conf.dnstype = .tcp then
      .ok (if core.answers.evfd then some .tcpdns else none, core)
    else
      .ok (directUdpCreate fwd conf.dnssrv conf.dnsport core)
  else if isGateway conf addr then
    .ok (directUdpCreate fwd (localhost addr) port core)
  else if isDirectCidrTarget conf addr then
    .ok (directUdpCreate fwd (inet.ntoa addr) port core)
  else
    match conf.proxytype with
    | .socks5 =>
        match core.udpassoc with
        | none => .error .useAfterFree
        | some assoc =>
            .ok (relayCreate fwd assoc (inet.ntoa addr) port core)
    | .direct => .ok (directUdpCreate fwd (inet.ntoa addr) port core)
    | .http => .ok (none, core)

/-- The test of `core_udp_new` for a flow which has to wait. -/
def leavesPending (core : CoreCtx) (addr : IpAddr) : Bool :=
  !isGateway core.conf addr && !isDirectCidrTarget core.conf addr &&
    core.conf.proxytype == .socks5 && !core.assocready

/-- `core_udp_new`. -/
def coreUdpNew
    (inet : Inet) (addr : IpAddr) (port : UInt16) (core : CoreCtx) :
    Except Fault CoreCtx :=
  let fwd := udpForwardCreate addr port core
  let next := { core with nextForward := core.nextForward + 1 }
  if leavesPending core addr then
    .ok
      (coreStartUdpAssoc { next with udplst := fwd :: next.udplst })
  else
    match udpRoute inet fwd next with
    | .error fault => .error fault
    | .ok (none, last) => .ok last
    | .ok (some proxy, last) =>
        .ok
          { last with
            udplst := { fwd with proxy := some proxy } :: last.udplst }

/-- How `core_tcp_new` reaches the destination of a connection. -/
def tcpRoute (inet : Inet) (conf : Nspconf) (addr : IpAddr)
    (port : UInt16) : Via :=
  if isGateway conf addr then
    .direct (localhost addr) port
  else if isDirectCidrTarget conf addr then
    .direct (inet.ntoa addr) port
  else
    match conf.proxytype with
    | .socks5 => .socks (inet.ntoa addr) port
    | .http => .http (inet.ntoa addr) port
    | .direct => .direct (inet.ntoa addr) port

/-- The text of the address which is given to the proxy. -/
def Via.addr : Via → Text
  | .direct addr _ | .socks addr _ | .relay addr _ | .http addr _ => addr

/-- `core_tcp_new`, as far as a proxy object is made. -/
def coreTcpNew
    (inet : Inet) (addr : IpAddr) (port : UInt16) (core : CoreCtx) : CoreCtx :=
  let via := tcpRoute inet core.conf addr port
  if servnameMaxlen < via.addr.length then core
  else (callConnect (.flow .tcp addr port) via core).2

/-! ## Timers -/

/-- `core_gc_tmr`, for UDP. -/
def coreGcTmr (core : CoreCtx) : CoreCtx :=
  { core with
    udplst :=
      core.udplst.filterMap fun fwd =>
        if fwd.gc = 0 then none else some { fwd with gc := fwd.gc - 1 } }

/-- `core_reassoc_tmr`. -/
def coreReassocTmr (core : CoreCtx) : CoreCtx :=
  let ticked := core.record [.reassocTick]
  if core.conf.proxytype ≠ .socks5 then
    ticked
  else if core.udpassoc.isNone && !core.assocready &&
      coreHasPendingUdpAssoc core then
    if 0 < core.assoccd then
      { ticked with assoccd := core.assoccd - 1 }
    else
      coreStartUdpAssoc ticked
  else
    ticked

/-- What `core_timerfd_epcb_events` does every second. -/
def coreTick (core : CoreCtx) : CoreCtx := coreReassocTmr (coreGcTmr core)

/-! ## Events on one forward -/

/-- Put back what is left of a forward. -/
def replaceForward
    (number : Nat) (left : Option UdpForward) (fwds : List UdpForward) :
    List UdpForward :=
  fwds.flatMap fun fwd =>
    if fwd.number = number then left.toList else [fwd]

/-- Run a function on the numbered forward. -/
def onForward
    (number : Nat)
    (run : UdpForward → CoreCtx → Option UdpForward × CoreCtx)
    (core : CoreCtx) : CoreCtx :=
  match core.udplst.find? fun fwd => fwd.number = number with
  | none => core
  | some fwd =>
      match run fwd core with
      | (left, next) =>
          { next with udplst := replaceForward number left next.udplst }

/-- An event of the proxy object of a forward. -/
def forwardIoEvent
    (events : EventMask) (incoming : List Incoming) (fwd : UdpForward)
    (core : CoreCtx) : Option UdpForward × CoreCtx :=
  match fwd.proxy with
  | none => (some fwd, core)
  | some proxy => udpProxyIoEvent events incoming proxy fwd core

/-! ## The system -/

/-- What happens to the forwarder, as far as UDP is concerned. -/
inductive CoreEvent where
  | newTcp (addr : IpAddr) (port : UInt16)
  | newUdp (addr : IpAddr) (port : UInt16)
  | datagram (number : Nat) (chain : PbufChain)
  | proxyEvent
      (number : Nat) (events : EventMask) (incoming : List Incoming)
  | assocEvent (events : EventMask) (handshake : HandshakeAnswers)
  | tick

/-- An event with the answers given to it. -/
structure CoreTurn where
  event : CoreEvent
  answers : KernelAnswers

/-- The state in which an event is handled. -/
def CoreCtx.prepare (core : CoreCtx) (turn : CoreTurn) : CoreCtx :=
  { core with answers := turn.answers }

/-- Handle an event. -/
def coreStep (inet : Inet) (core : CoreCtx) (turn : CoreTurn) :
    Except Fault CoreCtx :=
  let ready := core.prepare turn
  match turn.event with
  | .newTcp addr port => .ok (coreTcpNew inet addr port ready)
  | .newUdp addr port => coreUdpNew inet addr port ready
  | .datagram number chain =>
      .ok (onForward number (udpLwipReceived chain) ready)
  | .proxyEvent number events incoming =>
      .ok (onForward number (forwardIoEvent events incoming) ready)
  | .assocEvent events handshake =>
      assocEpollEvent inet events handshake ready
  | .tick => .ok (coreTick ready)

/-- The socket of the association reports events while it exists. -/
def coreEnabled (core : CoreCtx) (turn : CoreTurn) : Prop :=
  match turn.event with
  | .assocEvent _ _ => core.udpassoc.isSome = true
  | _ => True

instance (core : CoreCtx) :
    (turn : CoreTurn) → Decidable (coreEnabled core turn)
  | ⟨.assocEvent _ _, _⟩ =>
      inferInstanceAs (Decidable (core.udpassoc.isSome = true))
  | ⟨.newTcp _ _, _⟩ | ⟨.newUdp _ _, _⟩ | ⟨.datagram _ _, _⟩
  | ⟨.proxyEvent _ _ _, _⟩ | ⟨.tick, _⟩ =>
      inferInstanceAs (Decidable True)

/-- `core_init`. -/
def coreInit (conf : Nspconf) : CoreCtx where
  conf := conf
  udplst := []
  udpassoc := none
  assocretries := 0
  assoccd := 0
  assocready := conf.proxytype == .direct
  nextForward := 0
  nextAssoc := 0
  answers := ⟨[], [], true, true⟩
  trace := []

/-- The forwarder with its UDP flows. -/
def coreSystem (inet : Inet) : System Fault CoreCtx CoreTurn where
  initial core := ∃ conf, core = coreInit conf
  enabled := coreEnabled
  step := coreStep inet

instance (inet : Inet) (core : CoreCtx) (turn : CoreTurn) :
    Decidable ((coreSystem inet).enabled core turn) :=
  inferInstanceAs (Decidable (coreEnabled core turn))

end Nsproxy.Core.UdpFlows
