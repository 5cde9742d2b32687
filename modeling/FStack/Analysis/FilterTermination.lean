import FStack.Model.PacketFilter
import Mathlib.Tactic.Common

/-!
# When classification terminates

`get_ipv6_hdr_len` always calls itself on a shorter rest: an extension header
counts for at least one byte whatever its length field holds.
`protocol_filter_ip` advances by the header length it read, and it refuses an IPv4
header that is longer than the packet, but not one whose length field is zero.
Such a header in front of an encapsulated packet makes the next call on the same
data, and in front of IPv4 (IPIP) that call repeats itself forever.

`protocolFilterIp_terminates_iff` is the exact statement: every recursive call is
on a shorter length, and the function returns, if and only if no header reached by
unwrapping the packet is of that kind.
-/

set_option autoImplicit false

namespace FStack.Analysis

open FStack.Prelude FStack.Model

variable {mem : Memory} {c : IpCall} {hdr_len : ℕ} {proto : UInt8}

/-- The IP header at `c` is directly in front of the IP header at `c'`: its payload
protocol is IPIP (4) or IPv6 (41). -/
def Encapsulates (mem : Memory) (c c' : IpCall) : Prop :=
  ∃ hdr_len proto, ipHdr mem c = some (hdr_len, proto) ∧
    (proto.toNat = 4 ∧ c' = ⟨c.data + hdr_len, c.len - hdr_len, RTE_ETHER_TYPE_IPV4⟩ ∨
      proto.toNat = 41 ∧ c' = ⟨c.data + hdr_len, c.len - hdr_len, RTE_ETHER_TYPE_IPV6⟩)

/-- An IPv4 header whose length field (IHL) is zero and whose payload is again an IP
packet. -/
def ZeroLengthTunnel (mem : Memory) (c : IpCall) : Prop :=
  c.eth_frame_type = RTE_ETHER_TYPE_IPV4 ∧ 20 ≤ c.len ∧ (mem c.data).toNat &&& 0x0f = 0 ∧
    ((mem (c.data + 9)).toNat = 4 ∨ (mem (c.data + 9)).toNat = 41)

/-- No header met while unwrapping the packet at `c` is a zero-length tunnel. -/
def NoZeroLengthTunnel (mem : Memory) (c : IpCall) : Prop :=
  ∀ c', Relation.ReflTransGen (Encapsulates mem) c c' → ¬ ZeroLengthTunnel mem c'

/-- Classification from the entry `c` takes finitely many steps: every recursive call
of `protocol_filter_ip` below `c` and every recursive call of `get_ipv6_hdr_len` is on
a shorter length, and `protocol_filter_ip` returns. -/
def ClassifiesInFinitelyManySteps (conf : KniConf) (mem : Memory) (c : IpCall) : Prop :=
  TailCall.Shrinking (protocolFilterIpStep conf mem) IpCall.len c ∧
  (∀ h ext h', getIpv6HdrLenStep mem h = .call ext h' → h'.len < h.len) ∧
  ∃ depth r, protocolFilterIp conf mem depth c = some r

/-- INTERNAL: the recursive calls of `protocol_filter_ip` are the encapsulated headers.
SOURCE: lib/ff_dpdk_kni.c:357-361 -/
theorem calls_iff_encapsulates (conf : KniConf) (mem : Memory) (c c' : IpCall) :
    TailCall.Calls (protocolFilterIpStep conf mem) c c' ↔ Encapsulates mem c c' := by
  unfold TailCall.Calls protocolFilterIpStep Encapsulates
  cases hh : ipHdr mem c with
  | none => simp
  | some p =>
    obtain ⟨hdr_len, proto⟩ := p
    simp only [Option.some.injEq, Prod.mk.injEq]
    constructor
    · intro h
      refine ⟨hdr_len, proto, ⟨rfl, rfl⟩, ?_⟩
      unfold protocolFilterPayload at h
      split at h <;> simp only [Outcome.call.injEq, reduceCtorEq] at h
      · exact .inl ⟨by assumption, h.symm⟩
      · exact .inr ⟨by assumption, h.symm⟩
    · rintro ⟨_, _, ⟨rfl, rfl⟩, ⟨hp, rfl⟩ | ⟨hp, rfl⟩⟩ <;> simp [protocolFilterPayload, hp]

/-- INTERNAL: the header part of an IPv4 packet.
SOURCE: lib/ff_dpdk_kni.c:305-314 -/
theorem ipHdr_ipv4 (h4 : c.eth_frame_type = RTE_ETHER_TYPE_IPV4) :
    ipHdr mem c = some (hdr_len, proto) ↔
      20 ≤ c.len ∧ hdr_len = ((mem c.data).toNat &&& 0x0f) <<< 2 ∧ hdr_len ≤ c.len ∧
        proto = mem (c.data + 9) := by
  unfold ipHdr
  rw [if_pos h4]
  by_cases h20 : c.len < 20
  · simp only [h20, if_true, reduceCtorEq, false_iff]
    omega
  · by_cases hl : c.len < ((mem c.data).toNat &&& 0x0f) <<< 2
    · simp only [h20, if_false, hl, if_true, reduceCtorEq, false_iff]
      rintro ⟨-, rfl, hle, -⟩
      omega
    · simp only [h20, if_false, hl, Option.some.injEq, Prod.mk.injEq]
      constructor
      · rintro ⟨rfl, rfl⟩
        exact ⟨by omega, rfl, by omega, rfl⟩
      · rintro ⟨-, rfl, -, rfl⟩
        exact ⟨rfl, rfl⟩

/-- INTERNAL: the header part of an IPv6 packet is its 40 bytes and the extension
headers.
SOURCE: lib/ff_dpdk_kni.c:316-325 -/
theorem ipHdr_not_ipv4 (h4 : c.eth_frame_type ≠ RTE_ETHER_TYPE_IPV4)
    (h : ipHdr mem c = some (hdr_len, proto)) :
    40 ≤ hdr_len ∧ hdr_len ≤ c.len := by
  unfold ipHdr at h
  rw [if_neg h4] at h
  split at h
  · split at h
    · simp at h
    · simp only at h
      split at h
      · simp at h
      · simp only [Option.some.injEq, Prod.mk.injEq] at h
        omega
  · simp at h

/-- INTERNAL: an encapsulated header has a shorter rest unless it sits behind a
zero-length tunnel.
SOURCE: lib/ff_dpdk_kni.c:331-332 -/
theorem encapsulates_len {c' : IpCall} (h : Encapsulates mem c c') :
    c'.len < c.len ↔ ¬ ZeroLengthTunnel mem c := by
  obtain ⟨hdr_len, proto, hh, hp⟩ := h
  have hlen : c'.len = c.len - hdr_len := by
    rcases hp with ⟨-, rfl⟩ | ⟨-, rfl⟩ <;> rfl
  by_cases h4 : c.eth_frame_type = RTE_ETHER_TYPE_IPV4
  · obtain ⟨h20, hl, hle, rfl⟩ := (ipHdr_ipv4 h4).mp hh
    have hshift : hdr_len = ((mem c.data).toNat &&& 0x0f) * 4 := by
      rw [hl, Nat.shiftLeft_eq]
    unfold ZeroLengthTunnel
    constructor
    · rintro hlt ⟨-, -, h0, -⟩
      omega
    · intro hn
      by_contra hlt
      refine hn ⟨h4, h20, by omega, ?_⟩
      rcases hp with ⟨hp, -⟩ | ⟨hp, -⟩
      · exact .inl hp
      · exact .inr hp
  · obtain ⟨h40, hle⟩ := ipHdr_not_ipv4 h4 hh
    constructor
    · rintro - ⟨h4', -⟩
      exact h4 h4'
    · intro
      omega

/-- INTERNAL: a zero-length tunnel hands its own data to the next call, as IPv4 or as
IPv6. -/
theorem ZeroLengthTunnel.encapsulates (h : ZeroLengthTunnel mem c) :
    ∃ t, Encapsulates mem c ⟨c.data, c.len, t⟩ := by
  obtain ⟨h4, h20, h0, hp⟩ := h
  have hh : ipHdr mem c = some (0, mem (c.data + 9)) := by
    rw [ipHdr_ipv4 h4]
    simp [h20, h0]
  rcases hp with hp | hp
  · exact ⟨_, 0, _, hh, .inl ⟨hp, rfl⟩⟩
  · exact ⟨_, 0, _, hh, .inr ⟨hp, rfl⟩⟩

/-- INTERNAL: the calls that happen below `c` are the headers met while unwrapping. -/
theorem reaches_iff (conf : KniConf) (mem : Memory) (c c' : IpCall) :
    TailCall.Reaches (protocolFilterIpStep conf mem) c c' ↔
      Relation.ReflTransGen (Encapsulates mem) c c' := by
  have hrel : TailCall.Calls (protocolFilterIpStep conf mem) = Encapsulates mem := by
    funext a b
    exact propext (calls_iff_encapsulates conf mem a b)
  unfold TailCall.Reaches
  rw [hrel]

/-- INTERNAL: the recursive calls of `protocol_filter_ip` shrink exactly when no
zero-length tunnel is met. -/
theorem shrinking_iff (conf : KniConf) (mem : Memory) (c : IpCall) :
    TailCall.Shrinking (protocolFilterIpStep conf mem) IpCall.len c ↔
      NoZeroLengthTunnel mem c := by
  constructor
  · intro h c' hr hz
    obtain ⟨t, ht⟩ := hz.encapsulates
    have hlt := h c' _ ((reaches_iff conf mem c c').mpr hr)
      ((calls_iff_encapsulates conf mem _ _).mpr ht)
    exact Nat.lt_irrefl _ hlt
  · intro h c₁ c₂ hr hcall
    have henc := (calls_iff_encapsulates conf mem c₁ c₂).mp hcall
    exact (encapsulates_len henc).mpr (h c₁ ((reaches_iff conf mem c c₁).mp hr))

/-- Classification takes finitely many steps, with every recursive call on a strictly
shorter remaining length, exactly for the packets in which no zero-length tunnel is met;
and then `protocol_filter` returns on the whole frame.
SOURCE: lib/ff_dpdk_kni.c:245-374, lib/ff_dpdk_if.c:1607-1657 -/
theorem protocolFilterIp_terminates_iff (conf : KniConf) (mem : Memory) :
    (∀ c, ClassifiesInFinitelyManySteps conf mem c ↔ NoZeroLengthTunnel mem c) ∧
    ∀ len, (∀ c, protocolFilterStep conf mem len = .call c → NoZeroLengthTunnel mem c) →
      ∃ depth r, protocolFilter conf depth mem len = some r := by
  have hret : ∀ c, NoZeroLengthTunnel mem c →
      ∃ depth r, protocolFilterIp conf mem depth c = some r := by
    intro c hc
    obtain ⟨r, hr⟩ := TailCall.eval_isSome_of_shrinking ((shrinking_iff conf mem c).mpr hc)
      (Nat.lt_succ_self c.len)
    exact ⟨c.len + 1, r, hr⟩
  refine ⟨fun c => ⟨fun h => (shrinking_iff conf mem c).mp h.1, fun hc => ?_⟩, fun len hlen => ?_⟩
  · exact ⟨(shrinking_iff conf mem c).mpr hc, fun h ext h' hh => (getIpv6HdrLenStep_call hh).1,
      hret c hc⟩
  · cases hs : protocolFilterStep conf mem len with
    | ret r => exact ⟨0, r, by simp [protocolFilter, hs]⟩
    | call c =>
      obtain ⟨depth, r, hr⟩ := hret c (hlen c hs)
      exact ⟨depth, r, by simpa [protocolFilter, hs, ffKniProtoFilter] using hr⟩

/-- A unicast frame of 34 bytes: an IPv4 header with IHL 0 and protocol IPIP. -/
def zeroIhlFrame : Memory := fun i =>
  if i = 12 then 0x08 else if i = 14 then 0x40 else if i = 23 then 4 else 0

/-- With KNI enabled, a frame that carries an IPv4 header with IHL 0 and protocol IPIP is
never classified: the recursive call is on the same length, and no depth of calls is enough. -/
theorem zeroIhlFrame_diverges :
    ¬ ClassifiesInFinitelyManySteps ⟨true, fun _ => 0, fun _ => 0⟩ zeroIhlFrame
        ⟨14, 20, RTE_ETHER_TYPE_IPV4⟩ ∧
      ∀ depth, protocolFilter ⟨true, fun _ => 0, fun _ => 0⟩ depth zeroIhlFrame 34 = none := by
  have hself : TailCall.Calls (protocolFilterIpStep ⟨true, fun _ => 0, fun _ => 0⟩ zeroIhlFrame)
      ⟨14, 20, RTE_ETHER_TYPE_IPV4⟩ ⟨14, 20, RTE_ETHER_TYPE_IPV4⟩ := by
    rw [calls_iff_encapsulates]
    exact ⟨0, 4, (ipHdr_ipv4 rfl).mpr (by decide), .inl ⟨rfl, rfl⟩⟩
  have hentry : protocolFilterStep ⟨true, fun _ => 0, fun _ => 0⟩ zeroIhlFrame 34 =
      .call ⟨14, 20, RTE_ETHER_TYPE_IPV4⟩ := by decide
  constructor
  · intro h
    exact Nat.lt_irrefl _ (h.1 _ _ Relation.ReflTransGen.refl hself)
  · intro depth
    simp only [protocolFilter, hentry, ffKniProtoFilter, protocolFilterIp]
    exact TailCall.eval_eq_none_of_self_call hself depth

end FStack.Analysis
