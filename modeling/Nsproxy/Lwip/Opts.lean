import Mathlib.Tactic.Common

/-!
# Configuration of the TCP/IP stack

The constants of `lwipopts.h` and the few constants of lwIP itself which the
forwarding code and the segmentation code read, with the error codes of
`err.h` that they return.

A `Fault` ends the process: it is either an access to an object which was
already freed, or a failing assertion.  Assertions of lwIP are compiled into
every build, because `LWIP_NOASSERT` is never defined.
-/

namespace Nsproxy.Lwip.Opts

/-! ## Sizes -/

/-- `NSPROXY_MTU`. -/
def nsproxyMtu : Nat := 36000

/-- `TCP_MSS`: the MTU less an IPv6 header and a TCP header. -/
def tcpMss : Nat := nsproxyMtu - 60

/-- `TCP_WND`. -/
def tcpWnd : Nat := tcpMss * 2

/-- `TCP_SND_BUF`. -/
def tcpSndBuf : Nat := tcpMss * 2

/-- `TCP_SND_QUEUELEN`. -/
def tcpSndQueuelen : Nat := 65535

/-- `TCP_SNDQUEUELEN_OVERFLOW`. -/
def tcpSndqueuelenOverflow : Nat := 65535 - 3

/-- `TCPWND16`: clamp a window to sixteen bits. -/
def tcpwnd16 (window : Nat) : Nat := min window 0xffff

/-! ## Timers -/

/-- `NSPROXY_TCP_IDLE_TIMEOUT`, in seconds. -/
def nsproxyTcpIdleTimeout : Nat := 7206

/-- `NSPROXY_UDP_IDLE_TIMEOUT`, in seconds. -/
def nsproxyUdpIdleTimeout : Nat := 302

/-- `NSPROXY_DNS_IDLE_TIMEOUT`, in seconds. -/
def nsproxyDnsIdleTimeout : Nat := 16

/-! ## Error codes and faults -/

/-- The values of `err_t` which the modelled functions return. -/
inductive ErrT where
  | ok
  | mem
  | conn
  | abrt
  | clsd
  | netif
deriving DecidableEq, Repr

/-- What ends the process. -/
inductive Fault where
  | useAfterFree
  | assertion
deriving DecidableEq, Repr

end Nsproxy.Lwip.Opts
