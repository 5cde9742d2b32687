import FStack.Model.PacketFilter
import FStack.Prelude.Logged

/-!
# What packet classification reads

The functions of `Model/PacketFilter` once more, with every byte they load from the
frame and every subtraction from a 16-bit length written down as it happens.  Offsets
are counted from the first byte of the frame.  A field of two bytes is two reads.

The values are those of `Model/PacketFilter` (`protocolFilterStepA_val`,
`protocolFilterIpStepA_val`); only the logs are new.
-/

set_option autoImplicit false

namespace FStack.Model

open FStack.Prelude

/-- A byte of the frame is read, or `b` is subtracted from the length `a`. -/
inductive FrameAccess where
  | read (off : ℕ)
  | sub (a b : ℕ)
deriving DecidableEq, Repr

/-- A computation that reads the frame. -/
abbrev Reading (α : Type) := Logged FrameAccess α

def readByte (mem : Memory) (off : ℕ) : Reading UInt8 := do
  Logged.emit (.read off)
  return mem off

@[simp] theorem readByte_val (mem : Memory) (off : ℕ) : (readByte mem off).val = mem off := rfl

@[simp] theorem readByte_every (P : FrameAccess → Prop) (mem : Memory) (off : ℕ) :
    (readByte mem off).Every P ↔ P (.read off) := by
  simp [readByte]

def readBe16 (mem : Memory) (off : ℕ) : Reading ℕ := do
  let hi ← readByte mem off
  let lo ← readByte mem (off + 1)
  return hi.toNat * 256 + lo.toNat

def readLe16 (mem : Memory) (off : ℕ) : Reading ℕ := do
  let lo ← readByte mem off
  let hi ← readByte mem (off + 1)
  return lo.toNat + hi.toNat * 256

/-- `a - b` in `uint16_t`. -/
def subLen (a b : ℕ) : Reading ℕ := do
  Logged.emit (.sub a b)
  return sub16 a b

/-- SOURCE: lib/ff_dpdk_kni.c:206-216 -/
def protocolFilterTcpA (conf : KniConf) (mem : Memory) (data len : ℕ) : Reading FilterReturn :=
  if len < 20 then return .unknown
  else do
    let dst_port ← readLe16 mem (data + 2)
    return protocolFilterL4 dst_port conf.tcp_port_bitmap

/-- SOURCE: lib/ff_dpdk_kni.c:218-228 -/
def protocolFilterUdpA (conf : KniConf) (mem : Memory) (data len : ℕ) : Reading FilterReturn :=
  if len < 8 then return .unknown
  else do
    let dst_port ← readLe16 mem (data + 2)
    return protocolFilterL4 dst_port conf.udp_port_bitmap

/-- SOURCE: lib/ff_dpdk_kni.c:281-294 -/
def protocolFilterIcmp6A (mem : Memory) (data len : ℕ) : Reading FilterReturn :=
  if len < 8 then return .unknown
  else do
    let icmp6_type ← readByte mem data
    return if ND_ROUTER_SOLICIT ≤ icmp6_type.toNat ∧ icmp6_type.toNat ≤ ND_REDIRECT then .ndp
      else .unknown

/-- The `switch` of `get_ipv6_hdr_len`.
SOURCE: lib/ff_dpdk_kni.c:250-269 -/
def extHdrLenA (mem : Memory) (c : HdrLenCall) : Reading (Option ℕ) :=
  match c.proto.toNat with
  | 0 | 43 | 60 | 135 | 139 | 140 => do
    let n ← readByte mem (c.data + 1)
    return some (n.toNat + 1)
  | 44 => return some 8
  | 51 => do
    let n ← readByte mem (c.data + 1)
    return some ((n.toNat + 2) * 4)
  | _ => return none

/-- The body of `get_ipv6_hdr_len`: the next header's type is read before the call.
SOURCE: lib/ff_dpdk_kni.c:245-279 -/
def getIpv6HdrLenStepA (mem : Memory) (c : HdrLenCall) : Reading HdrLenStep := do
  match ← extHdrLenA mem c with
  | none => return .ret 0
  | some ext =>
    if c.len ≤ ext then return .ret c.len
    else
      let proto ← readByte mem c.data
      Logged.emit (.sub c.len ext)
      return .call ext ⟨proto, c.data + ext, c.len - ext⟩

theorem extHdrLenA_val (mem : Memory) (c : HdrLenCall) :
    (extHdrLenA mem c).val = extHdrLen mem c := by
  unfold extHdrLenA extHdrLen
  generalize c.proto.toNat = p
  split
  case h_9 => simp
  all_goals rfl

theorem getIpv6HdrLenStepA_val (mem : Memory) (c : HdrLenCall) :
    (getIpv6HdrLenStepA mem c).val = getIpv6HdrLenStep mem c := by
  unfold getIpv6HdrLenStepA getIpv6HdrLenStep
  rw [Logged.val_bind, extHdrLenA_val]
  cases extHdrLen mem c with
  | none => rfl
  | some ext =>
    simp only
    split <;> simp

/-- `get_ipv6_hdr_len` with what all its activations read.
SOURCE: lib/ff_dpdk_kni.c:245-279 -/
def getIpv6HdrLenA (mem : Memory) (c : HdrLenCall) : Reading (ℕ × UInt8) :=
  match _h : getIpv6HdrLenStepA mem c with
  | ⟨.ret n, log⟩ => ⟨(n, c.proto), log⟩
  | ⟨.call ext c', log⟩ =>
    ⟨(ext + (getIpv6HdrLenA mem c').val.1, (getIpv6HdrLenA mem c').val.2),
      log ++ (getIpv6HdrLenA mem c').log⟩
termination_by c.len
decreasing_by
  all_goals
    have hcall : getIpv6HdrLenStep mem c = .call ext c' := by
      rw [← getIpv6HdrLenStepA_val, _h]
    exact (getIpv6HdrLenStep_call hcall).1

theorem getIpv6HdrLenA_val (mem : Memory) (c : HdrLenCall) :
    (getIpv6HdrLenA mem c).val = getIpv6HdrLen mem c := by
  fun_induction getIpv6HdrLen mem c with
  | case1 c n hret =>
    rw [← getIpv6HdrLenStepA_val] at hret
    rw [getIpv6HdrLenA]
    split <;> rename_i heq <;> simp_all
  | case2 c ext c' hcall ih =>
    rw [← getIpv6HdrLenStepA_val] at hcall
    rw [getIpv6HdrLenA]
    split <;> rename_i heq <;> simp_all

/-- The header part of `protocol_filter_ip`.
SOURCE: lib/ff_dpdk_kni.c:305-329 -/
def ipHdrA (mem : Memory) (c : IpCall) : Reading (Option (ℕ × UInt8)) :=
  if c.eth_frame_type = RTE_ETHER_TYPE_IPV4 then
    if c.len < 20 then return none
    else do
      let version_ihl ← readByte mem c.data
      let hdr_len := (version_ihl.toNat &&& 0x0f) <<< 2
      if c.len < hdr_len then return none
      else
        let proto ← readByte mem (c.data + 9)
        return some (hdr_len, proto)
  else if c.eth_frame_type = RTE_ETHER_TYPE_IPV6 then
    if c.len < 40 then return none
    else do
      let proto ← readByte mem (c.data + 6)
      Logged.emit (.sub c.len 40)
      let r ← getIpv6HdrLenA mem ⟨proto, c.data + 40, c.len - 40⟩
      if c.len < 40 + r.1 then return none
      else return some (40 + r.1, r.2)
  else return none

/-- The `switch` of `protocol_filter_ip`.
SOURCE: lib/ff_dpdk_kni.c:331-367 -/
def protocolFilterPayloadA (conf : KniConf) (mem : Memory) (proto : UInt8) (next next_len : ℕ) :
    Reading (Outcome IpCall FilterReturn) :=
  match proto.toNat with
  | 89 => return .ret .ospf
  | 6 =>
    if conf.enable_kni then do return .ret (← protocolFilterTcpA conf mem next next_len)
    else return .ret .unknown
  | 17 =>
    if conf.enable_kni then do return .ret (← protocolFilterUdpA conf mem next next_len)
    else return .ret .unknown
  | 4 => return .call ⟨next, next_len, RTE_ETHER_TYPE_IPV4⟩
  | 41 => return .call ⟨next, next_len, RTE_ETHER_TYPE_IPV6⟩
  | 58 => do return .ret (← protocolFilterIcmp6A mem next next_len)
  | _ => return .ret .unknown

/-- The body of `protocol_filter_ip`.
SOURCE: lib/ff_dpdk_kni.c:297-368 -/
def protocolFilterIpStepA (conf : KniConf) (mem : Memory) (c : IpCall) :
    Reading (Outcome IpCall FilterReturn) := do
  match ← ipHdrA mem c with
  | none => return .ret .unknown
  | some (hdr_len, proto) =>
    Logged.emit (.sub c.len hdr_len)
    protocolFilterPayloadA conf mem proto (c.data + hdr_len) (c.len - hdr_len)

/-- The Ethernet header and the VLAN tag.
SOURCE: lib/ff_dpdk_if.c:1613-1625 -/
def etherHdrA (mem : Memory) (len : ℕ) : Reading (ℕ × ℕ × ℕ) := do
  let ether_type ← readBe16 mem 12
  let rest ← subLen len 14
  if ether_type = RTE_ETHER_TYPE_VLAN then
    let eth_proto ← readBe16 mem 16
    let rest ← subLen rest 4
    return (eth_proto, 18, rest)
  else return (ether_type, 14, rest)

/-- The body of `protocol_filter`, up to its call of `ff_kni_proto_filter`.
SOURCE: lib/ff_dpdk_if.c:1607-1657 -/
def protocolFilterStepA (conf : KniConf) (mem : Memory) (len : ℕ) :
    Reading (Outcome IpCall FilterReturn) :=
  if len < 6 then return .ret .unknown
  else do
    let (ether_type, data, rest) ← etherHdrA mem len
    if ether_type = RTE_ETHER_TYPE_ARP then return .ret .arp
    else
      let dst ← readByte mem 0
      let multicast : Bool := dst.toNat &&& 1 ≠ 0
      return if multicast then .ret .multi
        else if ether_type = RTE_ETHER_TYPE_IPV6 then .call ⟨data, rest, ether_type⟩
        else if !conf.enable_kni then .ret .unknown
        else if ether_type ≠ RTE_ETHER_TYPE_IPV4 then .ret .unknown
        else .call ⟨data, rest, ether_type⟩

/-! ## The values are those of the plain model -/

theorem ipHdrA_val (mem : Memory) (c : IpCall) : (ipHdrA mem c).val = ipHdr mem c := by
  unfold ipHdrA ipHdr
  split
  · split
    · rfl
    · simp only [Logged.val_bind, readByte_val]
      split <;> rename_i hlen <;> simp [hlen]
  · split
    · split
      · rfl
      · simp only [Logged.val_bind, readByte_val, getIpv6HdrLenA_val]
        split <;> rfl
    · rfl

theorem protocolFilterPayloadA_val (conf : KniConf) (mem : Memory) (proto : UInt8)
    (next next_len : ℕ) :
    (protocolFilterPayloadA conf mem proto next next_len).val =
      protocolFilterPayload conf mem proto next next_len := by
  unfold protocolFilterPayloadA protocolFilterPayload
  generalize proto.toNat = p
  split
  · rfl
  · split
    · simp only [Logged.val_bind, Logged.val_pure, protocolFilterTcpA, protocolFilterTcp]
      split <;> rfl
    · rfl
  · split
    · simp only [Logged.val_bind, Logged.val_pure, protocolFilterUdpA, protocolFilterUdp]
      split <;> rfl
    · rfl
  · rfl
  · rfl
  · simp only [Logged.val_bind, Logged.val_pure, protocolFilterIcmp6A, protocolFilterIcmp6]
    split <;> rfl
  · simp

/-- One activation of `protocol_filter_ip` does what the plain model says. -/
theorem protocolFilterIpStepA_val (conf : KniConf) (mem : Memory) (c : IpCall) :
    (protocolFilterIpStepA conf mem c).val = protocolFilterIpStep conf mem c := by
  unfold protocolFilterIpStepA protocolFilterIpStep
  rw [Logged.val_bind, ipHdrA_val]
  cases ipHdr mem c with
  | none => rfl
  | some p =>
    obtain ⟨hdr_len, proto⟩ := p
    simp only [Logged.val_bind, protocolFilterPayloadA_val]

theorem etherHdrA_val (mem : Memory) (len : ℕ) : (etherHdrA mem len).val = etherHdr mem len := by
  have h12 : (readBe16 mem 12).val = be16 mem 12 := rfl
  unfold etherHdrA etherHdr
  simp only [Logged.val_bind, h12]
  split <;> rfl

/-- `protocol_filter` calls `ff_kni_proto_filter` as the plain model says. -/
theorem protocolFilterStepA_val (conf : KniConf) (mem : Memory) (len : ℕ) :
    (protocolFilterStepA conf mem len).val = protocolFilterStep conf mem len := by
  unfold protocolFilterStepA protocolFilterStep
  split
  · rfl
  · rw [Logged.val_bind, etherHdrA_val]
    simp only
    split
    · rfl
    · rfl

end FStack.Model
