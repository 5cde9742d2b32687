import FStack.Prelude.TailCall
import Mathlib.Data.Int.Notation

/-!
# Packet classification

`protocol_filter` (`lib/ff_dpdk_if.c`) and the functions it calls
(`lib/ff_dpdk_kni.c`) sort a received frame into the classes of
`enum FilterReturn`.  The build is the default one on Linux: `INET6` and
`FF_KNI` are defined.

A frame is read through a pointer, and nothing stops the code from reading
behind the frame's end, so the bytes are a function on all offsets: the bytes
below the length are the frame, those above it are whatever the data room holds.
Lengths are `uint16_t`; the two subtractions of `protocol_filter` that can wrap
are written with `sub16`.

`protocol_filter_ip` calls itself on an encapsulated header, always as its last
action.  Its body is therefore given as what one activation does
(`protocolFilterIpStep`), and the function is `TailCall.eval` of it: an answer
`none` means that the bound on the depth was reached before the function returned.
-/

set_option autoImplicit false

namespace FStack.Model

open FStack.Prelude

/-- The bytes at a data pointer. -/
abbrev Memory := ℕ → UInt8

/-- `a - b` in `uint16_t`. -/
def sub16 (a b : ℕ) : ℕ := (a + 65536 - b) % 65536

/-- A 16-bit field in network byte order, as `rte_be_to_cpu_16` reads it. -/
def be16 (mem : Memory) (off : ℕ) : ℕ := (mem off).toNat * 256 + (mem (off + 1)).toNat

/-- A 16-bit field read without byte swapping, on a little-endian machine. -/
def le16 (mem : Memory) (off : ℕ) : ℕ := (mem off).toNat + (mem (off + 1)).toNat * 256

/-- `enum FilterReturn`.
SOURCE: lib/ff_dpdk_kni.h:52-61 -/
inductive FilterReturn where
  | unknown
  | kni
  | arp
  | ndp
  | ospf
  | multi
deriving DecidableEq, Repr

/-- The values of the enumeration, which the code compares with `>=`. -/
def FilterReturn.val : FilterReturn → ℤ
  | .unknown => -1
  | .kni => 1
  | .arp => 2
  | .ndp => 3
  | .ospf => 4
  | .multi => 5

def RTE_ETHER_TYPE_IPV4 : ℕ := 0x0800
def RTE_ETHER_TYPE_ARP : ℕ := 0x0806
def RTE_ETHER_TYPE_VLAN : ℕ := 0x8100
def RTE_ETHER_TYPE_IPV6 : ℕ := 0x86DD

/-- What classification reads besides the frame: the KNI switch and the two port
bitmaps of 8192 bytes. -/
structure KniConf where
  enable_kni : Bool
  tcp_port_bitmap : ℕ → UInt8
  udp_port_bitmap : ℕ → UInt8

/-- `get_bitmap`: bit `port % 8`, counted from the most significant one, of byte
`port / 8`.
SOURCE: lib/ff_dpdk_kni.c:102-107 -/
def getBitmap (port : ℕ) (bitmap : ℕ → UInt8) : Bool :=
  (bitmap (port / 8)).toNat &&& (0x80 >>> (port % 8)) > 0

/-- `protocol_filter_l4`.
SOURCE: lib/ff_dpdk_kni.c:196-204 -/
def protocolFilterL4 (port : ℕ) (bitmap : ℕ → UInt8) : FilterReturn :=
  if getBitmap port bitmap then .kni else .unknown

/-- `protocol_filter_tcp`: the header has 20 bytes, the destination port stands at
offset 2.
SOURCE: lib/ff_dpdk_kni.c:206-216 -/
def protocolFilterTcp (conf : KniConf) (mem : Memory) (data len : ℕ) : FilterReturn :=
  if len < 20 then .unknown else protocolFilterL4 (le16 mem (data + 2)) conf.tcp_port_bitmap

/-- `protocol_filter_udp`: the header has 8 bytes, the destination port stands at
offset 2.
SOURCE: lib/ff_dpdk_kni.c:218-228 -/
def protocolFilterUdp (conf : KniConf) (mem : Memory) (data len : ℕ) : FilterReturn :=
  if len < 8 then .unknown else protocolFilterL4 (le16 mem (data + 2)) conf.udp_port_bitmap

def ND_ROUTER_SOLICIT : ℕ := 133
def ND_REDIRECT : ℕ := 137

/-- `protocol_filter_icmp6`: the header has 8 bytes, its first is the type.
SOURCE: lib/ff_dpdk_kni.c:281-294 -/
def protocolFilterIcmp6 (mem : Memory) (data len : ℕ) : FilterReturn :=
  if len < 8 then .unknown
  else if ND_ROUTER_SOLICIT ≤ (mem data).toNat ∧ (mem data).toNat ≤ ND_REDIRECT then .ndp
  else .unknown

/-! ## The IPv6 extension headers -/

/-- The arguments of one activation of `get_ipv6_hdr_len`; `proto` is what the
pointer of that name points to. -/
structure HdrLenCall where
  proto : UInt8
  data : ℕ
  len : ℕ
deriving DecidableEq, Repr

/-- The `switch` of `get_ipv6_hdr_len`: how far the header at `data` reaches, for
the header types the function walks over.
SOURCE: lib/ff_dpdk_kni.c:250-269 -/
def extHdrLen (mem : Memory) (c : HdrLenCall) : Option ℕ :=
  match c.proto.toNat with
  -- HOPOPTS, ROUTING, DSTOPTS, MH, HIP, SHIM6
  | 0 | 43 | 60 | 135 | 139 | 140 => some ((mem (c.data + 1)).toNat + 1)
  -- FRAGMENT
  | 44 => some 8
  -- AH
  | 51 => some (((mem (c.data + 1)).toNat + 2) * 4)
  | _ => none

/-- What one activation of `get_ipv6_hdr_len` does: return a length, or add
`ext_hdr_len` to what its recursive call returns. -/
inductive HdrLenStep where
  | ret (hdr_len : ℕ)
  | call (ext_hdr_len : ℕ) (next : HdrLenCall)
deriving DecidableEq, Repr

/-- The body of `get_ipv6_hdr_len`.
SOURCE: lib/ff_dpdk_kni.c:245-279 -/
def getIpv6HdrLenStep (mem : Memory) (c : HdrLenCall) : HdrLenStep :=
  match extHdrLen mem c with
  | none => .ret 0
  | some ext =>
    if c.len ≤ ext then .ret c.len
    else .call ext ⟨mem c.data, c.data + ext, c.len - ext⟩

/-- INTERNAL: an extension header is at least one byte long, whatever its length
field says. -/
theorem extHdrLen_pos {mem : Memory} {c : HdrLenCall} {ext : ℕ}
    (h : extHdrLen mem c = some ext) : 0 < ext := by
  unfold extHdrLen at h
  split at h <;> simp only [Option.some.injEq, reduceCtorEq] at h <;> omega

/-- The recursive call of `get_ipv6_hdr_len` is made on a shorter rest.
SOURCE: lib/ff_dpdk_kni.c:271-276 -/
theorem getIpv6HdrLenStep_call {mem : Memory} {c c' : HdrLenCall} {ext : ℕ}
    (h : getIpv6HdrLenStep mem c = .call ext c') :
    c'.len < c.len ∧ ext + c'.len = c.len ∧ c'.data = c.data + ext := by
  unfold getIpv6HdrLenStep at h
  split at h
  · simp at h
  · rename_i e he
    have hpos := extHdrLen_pos he
    split at h
    · simp at h
    · simp only [HdrLenStep.call.injEq] at h
      obtain ⟨rfl, rfl⟩ := h
      refine ⟨?_, ?_, rfl⟩ <;> simp only <;> omega

/-- `get_ipv6_hdr_len`: the returned length, and the protocol left in `*proto`.
SOURCE: lib/ff_dpdk_kni.c:245-279 -/
def getIpv6HdrLen (mem : Memory) (c : HdrLenCall) : ℕ × UInt8 :=
  match _h : getIpv6HdrLenStep mem c with
  | .ret n => (n, c.proto)
  | .call ext c' => (ext + (getIpv6HdrLen mem c').1, (getIpv6HdrLen mem c').2)
termination_by c.len
decreasing_by all_goals exact (getIpv6HdrLenStep_call _h).1

/-! ## The IP header and its payload -/

/-- The arguments of one activation of `protocol_filter_ip`. -/
structure IpCall where
  data : ℕ
  len : ℕ
  eth_frame_type : ℕ
deriving DecidableEq, Repr

/-- The header part of `protocol_filter_ip`: the length of the headers in front of
the payload and the payload's protocol, or nothing where the function returns
`FILTER_UNKNOWN` before its `switch`.
SOURCE: lib/ff_dpdk_kni.c:305-329 -/
def ipHdr (mem : Memory) (c : IpCall) : Option (ℕ × UInt8) :=
  if c.eth_frame_type = RTE_ETHER_TYPE_IPV4 then
    if c.len < 20 then none
    else
      let hdr_len := ((mem c.data).toNat &&& 0x0f) <<< 2
      if c.len < hdr_len then none else some (hdr_len, mem (c.data + 9))
  else if c.eth_frame_type = RTE_ETHER_TYPE_IPV6 then
    if c.len < 40 then none
    else
      let r := getIpv6HdrLen mem ⟨mem (c.data + 6), c.data + 40, c.len - 40⟩
      if c.len < 40 + r.1 then none else some (40 + r.1, r.2)
  else none

/-- The `switch` of `protocol_filter_ip` on the payload's protocol.
SOURCE: lib/ff_dpdk_kni.c:331-367 -/
def protocolFilterPayload (conf : KniConf) (mem : Memory) (proto : UInt8) (next next_len : ℕ) :
    Outcome IpCall FilterReturn :=
  match proto.toNat with
  | 89 => .ret .ospf
  | 6 => .ret (if conf.enable_kni then protocolFilterTcp conf mem next next_len else .unknown)
  | 17 => .ret (if conf.enable_kni then protocolFilterUdp conf mem next next_len else .unknown)
  | 4 => .call ⟨next, next_len, RTE_ETHER_TYPE_IPV4⟩
  | 41 => .call ⟨next, next_len, RTE_ETHER_TYPE_IPV6⟩
  | 58 => .ret (protocolFilterIcmp6 mem next next_len)
  | _ => .ret .unknown

/-- The body of `protocol_filter_ip`.
SOURCE: lib/ff_dpdk_kni.c:297-368 -/
def protocolFilterIpStep (conf : KniConf) (mem : Memory) (c : IpCall) :
    Outcome IpCall FilterReturn :=
  match ipHdr mem c with
  | none => .ret .unknown
  | some (hdr_len, proto) =>
    protocolFilterPayload conf mem proto (c.data + hdr_len) (c.len - hdr_len)

/-- `protocol_filter_ip`, with at most `depth` nested activations.
SOURCE: lib/ff_dpdk_kni.c:297-368 -/
def protocolFilterIp (conf : KniConf) (mem : Memory) (depth : ℕ) (c : IpCall) :
    Option FilterReturn :=
  TailCall.eval (protocolFilterIpStep conf mem) depth c

/-- `ff_kni_proto_filter`.
SOURCE: lib/ff_dpdk_kni.c:370-374 -/
def ffKniProtoFilter (conf : KniConf) (mem : Memory) (depth : ℕ) (c : IpCall) :
    Option FilterReturn :=
  protocolFilterIp conf mem depth c

/-! ## The Ethernet header -/

/-- The Ethernet type behind an optional VLAN tag, with the offset and the length
of what follows.
SOURCE: lib/ff_dpdk_if.c:1613-1625 -/
def etherHdr (mem : Memory) (len : ℕ) : ℕ × ℕ × ℕ :=
  if be16 mem 12 = RTE_ETHER_TYPE_VLAN then (be16 mem 16, 18, sub16 (sub16 len 14) 4)
  else (be16 mem 12, 14, sub16 len 14)

/-- `rte_is_multicast_ether_addr` of the destination address. -/
def isMulticast (mem : Memory) : Bool := (mem 0).toNat &&& 1 ≠ 0

/-- The body of `protocol_filter`, up to its call of `ff_kni_proto_filter`.
SOURCE: lib/ff_dpdk_if.c:1607-1657 -/
def protocolFilterStep (conf : KniConf) (mem : Memory) (len : ℕ) : Outcome IpCall FilterReturn :=
  if len < 6 then .ret .unknown
  else
    let (ether_type, data, rest) := etherHdr mem len
    if ether_type = RTE_ETHER_TYPE_ARP then .ret .arp
    else if isMulticast mem then .ret .multi
    else if ether_type = RTE_ETHER_TYPE_IPV6 then .call ⟨data, rest, ether_type⟩
    else if !conf.enable_kni then .ret .unknown
    else if ether_type ≠ RTE_ETHER_TYPE_IPV4 then .ret .unknown
    else .call ⟨data, rest, ether_type⟩

/-- `protocol_filter`, with at most `depth` nested activations of
`protocol_filter_ip`.
SOURCE: lib/ff_dpdk_if.c:1607-1657 -/
def protocolFilter (conf : KniConf) (depth : ℕ) (mem : Memory) (len : ℕ) : Option FilterReturn :=
  match protocolFilterStep conf mem len with
  | .ret r => some r
  | .call c => ffKniProtoFilter conf mem depth c

end FStack.Model
