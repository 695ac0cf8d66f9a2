import Nsproxy.Conf
import Nsproxy.Lib.MoveToFront

/-!
# UDP flows

What `udp_input` makes of an incoming datagram: which pcb it belongs to, and
the pcb which is made for it when there is none.  A pcb is both the end of the
stack and the name of the `udp_forward` which `core_udp_new` attaches to it;
`udp_send` answers from the address to which the datagram was sent.

The stack has one interface, without `NETIF_FLAG_BROADCAST`; a pcb is never
bound to an interface, and never to addresses of any type.
-/

namespace Nsproxy.Lwip.Udp

open Nsproxy.Conf

/-! ## Addresses -/

/-- `IPADDR_BROADCAST`. -/
def broadcastAddr : Vector UInt8 4 := Vector.replicate 4 255

/-- `ip_addr_isany`. -/
def isAny : IpAddr → Bool
  | .v4 addr => decide (addr = Vector.replicate 4 0)
  | .v6 addr => decide (addr = Vector.replicate 16 0)

/-- `ip_addr_isbroadcast`. -/
def isBroadcast : IpAddr → Bool
  | .v4 addr =>
      decide (addr = broadcastAddr) || decide (addr = Vector.replicate 4 0)
  | .v6 _ => false

/-- `ip_addr_ismulticast`. -/
def isMulticast : IpAddr → Bool
  | .v4 addr => decide (addr.head &&& 0xf0 = 0xe0)
  | .v6 addr => decide (addr.head = 0xff)

/-- `ip4_addr_netcmp`. -/
def ip4Netcmp (first second mask : Vector UInt8 4) : Bool :=
  decide
    (first.zipWith (· &&& ·) mask = second.zipWith (· &&& ·) mask)

/-- The addresses of the interface. -/
structure Netif where
  ipAddr : Vector UInt8 4
  netmask : Vector UInt8 4
  /-- `ip6_select_source_address`. -/
  sourceAddress : IpAddr → Option IpAddr

/-! ## Pcbs and datagrams -/

/-- The two ends of a flow, as the application has them. -/
structure Flow where
  app : IpAddr
  appPort : Nat
  target : IpAddr
  targetPort : Nat
deriving DecidableEq, Repr

/-- A flow keeps its number when another one is added. -/
theorem known_append
    {flows : List Flow} {id : Nat} {flow : Flow}
    (known : flows[id]? = some flow) (newer : Flow) :
    (flows ++ [newer])[id]? = some flow := by
  rcases List.getElem?_eq_some_iff.mp known with ⟨bound, _⟩
  rwa [List.getElem?_append_left bound]

/-- A datagram with its addresses. -/
structure Datagram where
  src : IpAddr
  srcPort : Nat
  dst : IpAddr
  dstPort : Nat
  data : List UInt8
  family : src.family = dst.family
deriving DecidableEq

/-- The flow of a datagram of the application. -/
def Datagram.flow (datagram : Datagram) : Flow where
  app := datagram.src
  appPort := datagram.srcPort
  target := datagram.dst
  targetPort := datagram.dstPort

/-- The flow which a datagram answers. -/
def Datagram.answers (datagram : Datagram) : Flow where
  app := datagram.dst
  appPort := datagram.dstPort
  target := datagram.src
  targetPort := datagram.srcPort

/-- `struct udp_pcb`. -/
structure UdpPcb where
  id : Nat
  localIp : IpAddr
  localPort : Nat
  remoteIp : IpAddr
  remotePort : Nat
  /-- `UDP_FLAGS_CONNECTED`. -/
  connected : Bool
  /-- `recv` is set, and `recv_arg` is the forward of this pcb. -/
  recv : Bool
deriving DecidableEq, Repr

def UdpPcb.flow (pcb : UdpPcb) : Flow where
  app := pcb.remoteIp
  appPort := pcb.remotePort
  target := pcb.localIp
  targetPort := pcb.localPort

/-! ## Which pcb a datagram belongs to -/

/-- `udp_input_local_match`. -/
def udpInputLocalMatch (netif : Netif) (pcb : UdpPcb) (dst : IpAddr) :
    Bool :=
  match pcb.localIp, dst with
  | .v4 own, .v4 dest =>
      if isBroadcast (.v4 dest) then
        isAny (.v4 own) || decide (dest = broadcastAddr) ||
          ip4Netcmp own dest netif.netmask
      else
        isAny (.v4 own) || decide (own = dest)
  | .v6 own, .v6 dest => isAny (.v6 own) || decide (own = dest)
  | _, _ => false

/-- The local end of a pcb matches. -/
def localEnd (netif : Netif) (datagram : Datagram) (pcb : UdpPcb) : Bool :=
  decide (pcb.localPort = datagram.dstPort) &&
    udpInputLocalMatch netif pcb datagram.dst

/-- The remote end of a pcb matches. -/
def remoteEnd (datagram : Datagram) (pcb : UdpPcb) : Bool :=
  decide (pcb.remotePort = datagram.srcPort) &&
    (isAny pcb.remoteIp || decide (pcb.remoteIp = datagram.src))

/-- `uncon_pcb` after an unconnected pcb which matches. -/
def betterUncon (netif : Netif) (datagram : Datagram)
    (uncon : Option UdpPcb) (pcb : UdpPcb) : Option UdpPcb :=
  match uncon with
  | none => some pcb
  | some current =>
      if datagram.dst = .v4 broadcastAddr ∧
          current.localIp ≠ .v4 netif.ipAddr ∧
          pcb.localIp = .v4 netif.ipAddr then
        some pcb
      else
        some current

/--
The loop of `udp_input`.  A pcb which matches fully is moved to the front;
else the answer is `uncon_pcb`.
-/
def udpInputLoop (netif : Netif) (datagram : Datagram) :
    Option UdpPcb → List UdpPcb → List UdpPcb →
      Option UdpPcb × List UdpPcb
  | uncon, passed, [] => (uncon, passed.reverse)
  | uncon, passed, pcb :: rest =>
      if localEnd netif datagram pcb then
        if remoteEnd datagram pcb then
          (some pcb, pcb :: (passed.reverse ++ rest))
        else if pcb.connected then
          udpInputLoop netif datagram uncon (pcb :: passed) rest
        else
          udpInputLoop netif datagram
            (betterUncon netif datagram uncon pcb) (pcb :: passed) rest
      else
        udpInputLoop netif datagram uncon (pcb :: passed) rest

/-! ## The functions of the stack -/

/-- `udp_pcbs`, and how many pcbs were ever made. -/
structure Stack where
  pcbs : List UdpPcb
  made : Nat
deriving DecidableEq

/-- What becomes of a datagram. -/
inductive Outcome where
  /-- It is passed to the forward of a pcb. -/
  | received (id : Nat)
  /-- `icmp_port_unreach`. -/
  | unreachable
  | dropped
deriving DecidableEq, Repr

/-- `udp_remove`. -/
def udpRemove (id : Nat) (pcbs : List UdpPcb) : List UdpPcb :=
  pcbs.eraseP (fun pcb => decide (pcb.id = id))

/-- The pcb which `udp_input` makes for a new flow. -/
def newPcb (id : Nat) (datagram : Datagram) : UdpPcb where
  id := id
  localIp := datagram.dst
  localPort := datagram.dstPort
  remoteIp := datagram.src
  remotePort := datagram.srcPort
  connected := true
  recv := false

/-- The checksum is looked at, and the datagram goes to the forward. -/
def passOn (pcb : UdpPcb) (intact : Bool) : Outcome :=
  if intact && pcb.recv then .received pcb.id else .dropped

/--
`udp_input`, with whether `core_udp_new` returns `ERR_OK` for a new pcb, and
whether the checksum is right.  A forward which could not be created has
removed its pcb.
-/
def udpInput (netif : Netif) (stack : Stack) (datagram : Datagram)
    (accepts intact : Bool) : Outcome × Stack :=
  match udpInputLoop netif datagram none [] stack.pcbs with
  | (some pcb, pcbs) => (passOn pcb intact, { stack with pcbs := pcbs })
  | (none, pcbs) =>
      let pcb := { newPcb stack.made datagram with recv := true }
      let entered := { pcbs := pcb :: pcbs, made := stack.made + 1 }
      if accepts then
        (passOn pcb intact, entered)
      else
        (.unreachable,
          { entered with pcbs := udpRemove pcb.id entered.pcbs })

/-- The source address of `udp_sendto_if`. -/
def sourceAddr (netif : Netif) (pcb : UdpPcb) : Option IpAddr :=
  if isAny pcb.localIp || isMulticast pcb.localIp then
    match pcb.remoteIp with
    | .v6 _ => netif.sourceAddress pcb.remoteIp
    | .v4 _ => some (.v4 netif.ipAddr)
  else
    some pcb.localIp

/--
`udp_send`, with the port which `udp_bind` finds for a pcb without one.  The
interface always has a route.
-/
def udpSend (netif : Netif) (pcb : UdpPcb) (bound : Option Nat)
    (data : List UInt8) : Option (UdpPcb × Datagram) :=
  match sourceAddr netif pcb with
  | none => none
  | some src =>
      if family : src.family = pcb.remoteIp.family then
        match if pcb.localPort = 0 then bound else some pcb.localPort with
        | none => none
        | some port =>
            some
              ({ pcb with localPort := port },
                { src := src
                  srcPort := port
                  dst := pcb.remoteIp
                  dstPort := pcb.remotePort
                  data := data
                  family := family })
      else
        none

end Nsproxy.Lwip.Udp
