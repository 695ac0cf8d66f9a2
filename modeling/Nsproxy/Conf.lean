import Mathlib.Algebra.Group.Nat.Defs
import Mathlib.Tactic.Common
import Mathlib.Data.List.TakeWhile

/-!
# Configuration and the direct-route table

The part of `struct nspconf` which the forwarder reads while it runs, with the
functions of `main.c` which extend the table of CIDR blocks.

A C string is the list of its bytes before the terminating NUL.  The
conversions between addresses and their texts are those of the C library and
of lwIP; `Inet` stands for them, and nothing is assumed of it here.
-/

namespace Nsproxy.Conf

/-! ## Texts and addresses -/

/-- A C string. -/
abbrev Text : Type := List UInt8

/-- A string constant of the source. -/
def ascii (text : String) : Text :=
  text.toList.map fun character => UInt8.ofNat character.toNat

/-- What a C function reads of a buffer: everything before the first NUL. -/
def cstr (buffer : List UInt8) : Text :=
  buffer.takeWhile fun byte => byte != 0

/-- A buffer without a NUL is read as a whole. -/
theorem cstr_eq_self {buffer : List UInt8} (nulFree : 0 ∉ buffer) :
    cstr buffer = buffer := by
  refine List.takeWhile_eq_self_iff.mpr ?_
  intro byte member
  simp only [bne_iff_ne]
  rintro rfl
  exact nulFree member

/-- `AF_INET` and `AF_INET6`. -/
inductive Family where
  | inet
  | inet6
deriving DecidableEq, Repr

/-- `ip_addr_t`, in network byte order. -/
inductive IpAddr where
  | v4 (addr : Vector UInt8 4)
  | v6 (addr : Vector UInt8 16)
deriving DecidableEq, Repr

/-- The address `10.0.0.1` of the runs which are written out. -/
def sampleV4 : Vector UInt8 4 := #v[10, 0, 0, 1]

namespace IpAddr

def family : IpAddr → Family
  | .v4 _ => .inet
  | .v6 _ => .inet6

/-- The sixteen bytes `raw`, padded with zeros for IPv4. -/
def raw : IpAddr → List UInt8
  | .v4 addr => addr.toList ++ List.replicate 12 0
  | .v6 addr => addr.toList

end IpAddr

/-- `inet_pton`, `inet_ntop`, and `ipaddr_ntoa_r` of lwIP. -/
structure Inet where
  pton4 : Text → Option (Vector UInt8 4)
  pton6 : Text → Option (Vector UInt8 16)
  ntop4 : Vector UInt8 4 → Text
  ntop6 : Vector UInt8 16 → Text
  ntoa : IpAddr → Text

/-! ## The configuration -/

/-- `SERVNAME_MAXLEN`. -/
def servnameMaxlen : Nat := 255

/-- `PROXY_SOCKS5`, `PROXY_HTTP` and `PROXY_DIRECT`. -/
inductive ProxyType where
  | socks5
  | http
  | direct
deriving DecidableEq, Repr

/-- `DNS_REDIR_OFF`, `DNS_REDIR_TCP` and `DNS_REDIR_UDP`. -/
inductive DnsType where
  | off
  | tcp
  | udp
deriving DecidableEq, Repr

/-- `DIRECT_CIDR_WHITELIST` and `DIRECT_CIDR_BLACKLIST`. -/
inductive CidrMode where
  | whitelist
  | blacklist
deriving DecidableEq, Repr

/-- `struct cidr_block`. -/
structure CidrBlock where
  family : Family
  prefixlen : UInt8
  addr : Vector UInt8 16
deriving DecidableEq, Repr

/--
`struct nspconf`, less the domain rules.  `directCidrs` holds the first
`direct_cidr_count` entries of the array.
-/
structure Nspconf where
  proxysrv : Text
  proxyport : UInt16
  proxytype : ProxyType
  dnssrv : Text
  dnsport : UInt16
  dnstype : DnsType
  proxyuser : Text
  proxypass : Text
  ipv6 : Bool
  directCidrs : List CidrBlock
  directCidrCapacity : Nat
  directCidrMode : CidrMode
deriving DecidableEq, Repr

/-! ## The table of CIDR blocks -/

/-- The loop of `next_capacity`, over `size_t`. -/
def growCapacity (current prev next : Nat) : Nat :=
  if next ≤ current then
    if (prev + next) % 2 ^ 64 ≤ next then
      (current + 1) % 2 ^ 64
    else
      growCapacity current next ((prev + next) % 2 ^ 64)
  else
    next
termination_by current + 1 - next

/-- `next_capacity`. -/
def nextCapacity (current : Nat) : Nat :=
  if current = 0 then 16 else growCapacity current 0 16

/-- A table of fewer than 16 entries grows to 16. -/
theorem nextCapacity_small {capacity : Nat} (small : capacity < 16) :
    nextCapacity capacity = 16 := by
  by_cases zero : capacity = 0
  · rw [nextCapacity, if_pos zero]
  · rw [nextCapacity, if_neg zero, growCapacity,
      if_neg (Nat.not_le.mpr small)]

/-- From 16 entries on the walk gives up at its first step. -/
theorem nextCapacity_large {capacity : Nat} (large : 16 ≤ capacity) :
    nextCapacity capacity = (capacity + 1) % 2 ^ 64 := by
  have some_capacity : capacity ≠ 0 := by omega
  have stuck : (0 + 16) % 2 ^ 64 ≤ 16 := by decide
  rw [nextCapacity, if_neg some_capacity, growCapacity, if_pos large,
    if_pos stuck]

/-- `nspconf_add_direct_cidr_raw`: blocks are not stored twice. -/
def nspconfAddDirectCidrRaw (conf : Nspconf) (block : CidrBlock) :
    Nspconf :=
  if block ∈ conf.directCidrs then
    conf
  else
    { conf with
      directCidrs := conf.directCidrs ++ [block]
      directCidrCapacity :=
        if conf.directCidrs.length = conf.directCidrCapacity then
          nextCapacity conf.directCidrCapacity
        else
          conf.directCidrCapacity }

/-- `cidr_match_bytes`. -/
def cidrMatchBytes (addr network : List UInt8) (prefixlen : UInt8) :
    Bool :=
  let fullbytes := prefixlen.toNat / 8
  let rembits := prefixlen.toNat % 8
  let mask : UInt8 := UInt8.ofNat (0xff <<< (8 - rembits))
  addr.take fullbytes == network.take fullbytes &&
    (rembits == 0 ||
      addr.getD fullbytes 0 &&& mask == network.getD fullbytes 0 &&& mask)

/-- The block covers the address. -/
def CidrBlock.matches (cidr : CidrBlock) (addr : IpAddr) : Bool :=
  cidr.family == addr.family &&
    cidrMatchBytes addr.raw cidr.addr.toList cidr.prefixlen

/-- `is_direct_cidr_target`. -/
def isDirectCidrTarget (conf : Nspconf) (addr : IpAddr) : Bool :=
  if conf.directCidrs.isEmpty && conf.directCidrMode == .whitelist then
    false
  else
    match conf.directCidrMode with
    | .blacklist => !conf.directCidrs.any fun cidr => cidr.matches addr
    | .whitelist => conf.directCidrs.any fun cidr => cidr.matches addr

end Nsproxy.Conf
