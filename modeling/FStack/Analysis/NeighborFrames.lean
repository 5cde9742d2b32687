import FStack.Analysis.FilterLocality
import FStack.Model.Receive

/-!
# Frames of address resolution

Which frames carry ARP or Neighbor Discovery, as the formats define it, and which of them
`protocol_filter` recognises: ARP always, Neighbor Discovery only if the frame is not sent to a
group address, because that test comes first, and if the walk over the extension headers ends
where the message is.  A copy of a recognised frame is recognised too (`fannedOut_of_sameFrame`).
-/

set_option autoImplicit false

namespace FStack.Analysis

open FStack.Model FStack.Prelude

variable {f : Frame} {ty off : ℕ} {kni : KniConf} {r : FilterReturn}

/-- The first segment holds an Ethernet header, with one VLAN tag or none, for the given type; its
payload begins at `off`. -/
def EtherPayload (f : Frame) (ether_type off : ℕ) : Prop :=
  be16 f.head.mem 12 ≠ RTE_ETHER_TYPE_VLAN ∧ be16 f.head.mem 12 = ether_type ∧ off = 14 ∧
      14 ≤ f.head.data_len.toNat ∨
    be16 f.head.mem 12 = RTE_ETHER_TYPE_VLAN ∧ be16 f.head.mem 16 = ether_type ∧ off = 18 ∧
      18 ≤ f.head.data_len.toNat

def CarriesArp (f : Frame) : Prop := ∃ off, EtherPayload f RTE_ETHER_TYPE_ARP off

/-- From a header of type `proto` at `pos`, the IPv6 extension headers lead to an ICMPv6 header at
`icmp`.  Option headers are counted in units of 8 bytes, the authentication header in units of 4. -/
inductive LeadsToIcmp6 (mem : Memory) (len : ℕ) : UInt8 → ℕ → ℕ → Prop where
  | icmp6 {proto : UInt8} {pos : ℕ} (h : proto.toNat = 58) (hlen : pos + 8 ≤ len) :
      LeadsToIcmp6 mem len proto pos pos
  | options {proto : UInt8} {pos icmp : ℕ} (h : proto.toNat ∈ [0, 43, 60, 135, 139, 140])
      (hnext : LeadsToIcmp6 mem len (mem pos) (pos + 8 * ((mem (pos + 1)).toNat + 1)) icmp) :
      LeadsToIcmp6 mem len proto pos icmp
  | fragment {proto : UInt8} {pos icmp : ℕ} (h : proto.toNat = 44)
      (hnext : LeadsToIcmp6 mem len (mem pos) (pos + 8) icmp) : LeadsToIcmp6 mem len proto pos icmp
  | auth {proto : UInt8} {pos icmp : ℕ} (h : proto.toNat = 51)
      (hnext : LeadsToIcmp6 mem len (mem pos) (pos + 4 * ((mem (pos + 1)).toNat + 2)) icmp) :
      LeadsToIcmp6 mem len proto pos icmp

/-- The frame is an IPv6 packet with a Neighbor Discovery message, in its first segment. -/
def CarriesNd (f : Frame) : Prop :=
  ∃ off icmp, EtherPayload f RTE_ETHER_TYPE_IPV6 off ∧ off + 40 ≤ f.head.data_len.toNat ∧
    LeadsToIcmp6 f.head.mem f.head.data_len.toNat (f.head.mem (off + 6)) (off + 40) icmp ∧
    ND_ROUTER_SOLICIT ≤ (f.head.mem icmp).toNat ∧ (f.head.mem icmp).toNat ≤ ND_REDIRECT

/-- Unwrapping the IP packet at `c`, each header being as long as the code takes it to be, ends at
an ICMPv6 header of Neighbor Discovery. -/
def UnwrapsToNd (mem : Memory) (c : IpCall) : Prop :=
  ∃ c' hdr_len proto, Relation.ReflTransGen (Encapsulates mem) c c' ∧
    ipHdr mem c' = some (hdr_len, proto) ∧ proto.toNat = 58 ∧ 8 ≤ c'.len - hdr_len ∧
    ND_ROUTER_SOLICIT ≤ (mem (c'.data + hdr_len)).toNat ∧
    (mem (c'.data + hdr_len)).toNat ≤ ND_REDIRECT

/-- The condition for the copies to be made. -/
def FannedOut (f : Frame) : Prop :=
  CarriesArp f ∨
    isMulticast f.head.mem = false ∧ ∃ off, EtherPayload f RTE_ETHER_TYPE_IPV6 off ∧
      UnwrapsToNd f.head.mem ⟨off, f.head.data_len.toNat - off, RTE_ETHER_TYPE_IPV6⟩

/-- The class of a frame in the eyes of `protocol_filter`. -/
def Classified (kni : KniConf) (f : Frame) (r : FilterReturn) : Prop :=
  ∃ depth, protocolFilter kni depth f.head.mem f.head.data_len.toNat = some r

/-! ## Classification -/

/-- INTERNAL: the Ethernet header of a frame that is long enough.
SOURCE: lib/ff_dpdk_if.c:1613-1625 -/
theorem EtherPayload.etherHdr_eq (h : EtherPayload f ty off) :
    etherHdr f.head.mem f.head.data_len.toNat = (ty, off, f.head.data_len.toNat - off) := by
  have hlt : f.head.data_len.toNat < 65536 := f.head.data_len.toNat_lt
  rw [etherHdr]
  rcases h with ⟨hne, hty, hoff, hlen⟩ | ⟨hvlan, hty, hoff, hlen⟩
  · rw [if_neg hne, hty, hoff]
    have hsub : sub16 f.head.data_len.toNat 14 = f.head.data_len.toNat - 14 := by
      rw [sub16]
      omega
    rw [hsub]
  · rw [if_pos hvlan, hty, hoff]
    have hsub : sub16 (sub16 f.head.data_len.toNat 14) 4 = f.head.data_len.toNat - 18 := by
      rw [sub16, sub16]
      omega
    rw [hsub]

theorem EtherPayload.off_le (h : EtherPayload f ty off) :
    off ≤ f.head.data_len.toNat ∧ 14 ≤ f.head.data_len.toNat := by
  rcases h with ⟨-, -, hoff, hlen⟩ | ⟨-, -, hoff, hlen⟩
  · omega
  · omega

theorem EtherPayload.unique {ty' off' : ℕ} (h : EtherPayload f ty off) (h' : EtherPayload f ty' off') :
    ty = ty' ∧ off = off' := by
  have heq := h.etherHdr_eq.symm.trans h'.etherHdr_eq
  simp only [Prod.mk.injEq] at heq
  exact ⟨heq.1, heq.2.1⟩

/-- INTERNAL: ARP is tested first.
SOURCE: lib/ff_dpdk_if.c:1627-1629 -/
theorem protocolFilter_arp (h : CarriesArp f) (kni : KniConf) (depth : ℕ) :
    protocolFilter kni depth f.head.mem f.head.data_len.toNat = some .arp := by
  obtain ⟨off, hoff⟩ := h
  have hlen := hoff.off_le.2
  rw [protocolFilter, protocolFilterStep, if_neg (by omega), hoff.etherHdr_eq]
  rfl

/-- INTERNAL: an IPv6 frame is tested for a group address before it is parsed.
SOURCE: lib/ff_dpdk_if.c:1631-1640 -/
theorem protocolFilter_ipv6 (h : EtherPayload f RTE_ETHER_TYPE_IPV6 off) (kni : KniConf) (depth : ℕ)
    :
    protocolFilter kni depth f.head.mem f.head.data_len.toNat =
      if isMulticast f.head.mem then some .multi
      else protocolFilterIp kni f.head.mem depth
        ⟨off, f.head.data_len.toNat - off, RTE_ETHER_TYPE_IPV6⟩ := by
  have hlen := h.off_le.2
  rw [protocolFilter, protocolFilterStep, if_neg (by omega), h.etherHdr_eq]
  dsimp only
  rw [if_neg (by decide)]
  cases isMulticast f.head.mem with
  | true => rfl
  | false => rfl

theorem protocolFilterIp_unique {mem : Memory} {c : IpCall} {d d' : ℕ} {r' : FilterReturn}
    (h : protocolFilterIp kni mem d c = some r) (h' : protocolFilterIp kni mem d' c = some r') :
    r = r' := by
  have h1 := TailCall.eval_mono h (Nat.le_max_left d d')
  have h2 := TailCall.eval_mono h' (Nat.le_max_right d d')
  rw [h1, Option.some.injEq] at h2
  exact h2

theorem Classified.unique {r' : FilterReturn} (h : Classified kni f r) (h' : Classified kni f r') :
    r = r' := by
  obtain ⟨d, hd⟩ := h
  obtain ⟨d', hd'⟩ := h'
  rw [protocolFilter] at hd hd'
  split at hd
  · rename_i hs
    rw [hs] at hd'
    rw [Option.some.injEq] at hd hd'
    rw [← hd, ← hd']
  · rename_i c hs
    rw [hs] at hd'
    exact protocolFilterIp_unique hd hd'

/-- INTERNAL: an activation that answers Neighbor Discovery has found it behind its header.
SOURCE: lib/ff_dpdk_kni.c:281-294, lib/ff_dpdk_kni.c:331-367 -/
theorem protocolFilterIpStep_ndp_iff (kni : KniConf) (mem : Memory) (c : IpCall) :
    protocolFilterIpStep kni mem c = .ret .ndp ↔
      ∃ hdr_len proto, ipHdr mem c = some (hdr_len, proto) ∧ proto.toNat = 58 ∧
        8 ≤ c.len - hdr_len ∧ ND_ROUTER_SOLICIT ≤ (mem (c.data + hdr_len)).toNat ∧
        (mem (c.data + hdr_len)).toNat ≤ ND_REDIRECT := by
  rw [protocolFilterIpStep]
  constructor
  · intro h
    split at h
    · cases h
    · rename_i hdr_len proto hh
      rcases protocolFilterPayload_ret h with hr | hr | hr | ⟨hproto, hr⟩
      · cases hr
      · cases hr
      · cases hr
      · rw [protocolFilterIcmp6] at hr
        split at hr
        · cases hr
        · split at hr
          · rename_i hlen htype
            exact ⟨hdr_len, proto, hh, hproto, by omega, htype.1, htype.2⟩
          · cases hr
  · rintro ⟨hdr_len, proto, hh, hproto, hlen, hlo, hhi⟩
    rw [hh]
    simp only [protocolFilterPayload, hproto]
    rw [protocolFilterIcmp6, if_neg (by omega), if_pos ⟨hlo, hhi⟩]

/-- The walk of `protocol_filter_ip` finds Neighbor Discovery exactly if unwrapping leads to it.
SOURCE: lib/ff_dpdk_kni.c:297-368 -/
theorem protocolFilterIp_ndp_iff (kni : KniConf) (mem : Memory) (c : IpCall) :
    (∃ depth, protocolFilterIp kni mem depth c = some .ndp) ↔ UnwrapsToNd mem c := by
  constructor
  · rintro ⟨depth, h⟩
    induction depth generalizing c with
    | zero => cases h
    | succ depth ih =>
      rw [protocolFilterIp, TailCall.eval] at h
      cases hs : protocolFilterIpStep kni mem c with
      | ret r =>
        rw [hs, Option.some.injEq] at h
        rw [h] at hs
        obtain ⟨hdr_len, proto, hnd⟩ := (protocolFilterIpStep_ndp_iff kni mem c).mp hs
        exact ⟨c, hdr_len, proto, Relation.ReflTransGen.refl, hnd⟩
      | call c₁ =>
        rw [hs] at h
        obtain ⟨c', hdr_len, proto, hreach, hnd⟩ := ih c₁ h
        have henc := (calls_iff_encapsulates kni mem c c₁).mp hs
        exact ⟨c', hdr_len, proto, Relation.ReflTransGen.head henc hreach, hnd⟩
  · rintro ⟨c', hdr_len, proto, hreach, hnd⟩
    have hlast := (protocolFilterIpStep_ndp_iff kni mem c').mpr ⟨hdr_len, proto, hnd⟩
    induction hreach using Relation.ReflTransGen.head_induction_on with
    | refl =>
      refine ⟨1, ?_⟩
      rw [protocolFilterIp, TailCall.eval, hlast]
    | head henc _ ih =>
      obtain ⟨depth, hd⟩ := ih
      refine ⟨depth + 1, ?_⟩
      have hcall := (calls_iff_encapsulates kni mem _ _).mpr henc
      rw [TailCall.Calls] at hcall
      rw [protocolFilterIp, TailCall.eval, hcall]
      exact hd

/-- The frames of the statement are recognised exactly under the condition. -/
theorem classified_iff_fannedOut
    (hcar : CarriesArp f ∨ ∃ off, EtherPayload f RTE_ETHER_TYPE_IPV6 off) (h : Classified kni f r) :
    (r = .arp ∨ r = .ndp) ↔ FannedOut f := by
  obtain ⟨depth, hd⟩ := h
  rcases hcar with harp | ⟨off, hoff⟩
  · rw [protocolFilter_arp harp, Option.some.injEq] at hd
    exact iff_of_true (Or.inl hd.symm) (Or.inl harp)
  · have hnot : ¬ CarriesArp f := by
      rintro ⟨off', hoff'⟩
      exact absurd (hoff.unique hoff').1 (by decide)
    rw [protocolFilter_ipv6 hoff] at hd
    simp only [FannedOut, hnot, false_or]
    cases hm : isMulticast f.head.mem with
    | true =>
      rw [hm, if_pos rfl, Option.some.injEq] at hd
      rw [← hd]
      simp
    | false =>
      rw [hm, if_neg (by simp)] at hd
      have hne : r ≠ .arp := by
        intro harp
        rw [harp] at hd
        exact protocolFilterIp_ne_arp _ _ _ _ hd
      simp only [hne, false_or, true_and]
      constructor
      · intro hr
        rw [hr] at hd
        exact ⟨off, hoff, (protocolFilterIp_ndp_iff kni _ _).mp ⟨depth, hd⟩⟩
      · rintro ⟨off', hoff', hnd⟩
        rw [← (hoff.unique hoff').2] at hnd
        obtain ⟨depth', hd'⟩ := (protocolFilterIp_ndp_iff kni _ _).mpr hnd
        exact protocolFilterIp_unique hd hd'

/-! ## Copies -/

/-- The data is the same. -/
def SameBytes (s t : RxSeg) : Prop :=
  s.data_len = t.data_len ∧ AgreeBelow t.data_len.toNat s.mem t.mem

/-- A frame equal to the other: the same data, segment by segment, and the same tag. -/
def SameFrame (f g : Frame) : Prop :=
  SameBytes f.head g.head ∧ List.Forall₂ SameBytes f.rest g.rest ∧ f.pkt_len = g.pkt_len ∧
    f.vlan = g.vlan

theorem sameBytes_deepAttach (room : Memory) (s : RxSeg) :
    SameBytes (pktmbufDeepAttach room s) s := by
  refine ⟨rfl, ?_⟩
  intro i hi
  simp only [pktmbufDeepAttach, hi, if_true]

theorem forall₂_mapIdx {α : Type} {R : α → α → Prop} {f : ℕ → α → α} (hf : ∀ i a, R (f i a) a)
    (l : List α) : List.Forall₂ R (l.mapIdx f) l := by
  induction l generalizing f with
  | nil => exact List.Forall₂.nil
  | cons a l ih =>
    rw [List.mapIdx_cons]
    exact List.Forall₂.cons (hf 0 a) (ih (fun i b => hf (i + 1) b))

/-- INTERNAL: `pktmbuf_deep_clone` makes an equal frame.
SOURCE: lib/ff_dpdk_if.c:1659-1717 -/
theorem sameFrame_deepClone {env : RxEnv} {dest : Option ℕ} {m c : Mbuf}
    (h : pktmbufDeepClone env dest m = some c) : c.id = m.id ∧ SameFrame c.frame m.frame := by
  rw [pktmbufDeepClone] at h
  split at h
  · cases h
    refine ⟨rfl, sameBytes_deepAttach _ _, ?_, rfl, rfl⟩
    apply forall₂_mapIdx
    intro i s
    exact sameBytes_deepAttach _ s
  · cases h

theorem sameFrame_refl (f : Frame) : SameFrame f f := by
  have hbytes : ∀ s : RxSeg, SameBytes s s := fun s => ⟨rfl, fun _ _ => rfl⟩
  refine ⟨hbytes _, ?_, rfl, rfl⟩
  induction f.rest with
  | nil => exact List.Forall₂.nil
  | cons s l ih => exact List.Forall₂.cons (hbytes s) ih

theorem EtherPayload.of_sameFrame {c : Frame} (h : EtherPayload f ty off) (hsame : SameFrame c f) :
    EtherPayload c ty off := by
  obtain ⟨⟨hlen, hagree⟩, -⟩ := hsame
  have hbe : ∀ i, i + 2 ≤ f.head.data_len.toNat → be16 c.head.mem i = be16 f.head.mem i := by
    intro i hi
    rw [be16, be16, hagree i (by omega), hagree (i + 1) (by omega)]
  rcases h with ⟨hne, hty, hoff, hle⟩ | ⟨hvlan, hty, hoff, hle⟩
  · refine Or.inl ⟨?_, ?_, hoff, ?_⟩
    · rw [hbe 12 (by omega)]
      exact hne
    · rw [hbe 12 (by omega)]
      exact hty
    · rw [hlen]
      exact hle
  · refine Or.inr ⟨?_, ?_, hoff, ?_⟩
    · rw [hbe 12 (by omega)]
      exact hvlan
    · rw [hbe 16 (by omega)]
      exact hty
    · rw [hlen]
      exact hle

theorem UnwrapsToNd.congr {n : ℕ} {mem mem' : Memory} {c : IpCall} (h : UnwrapsToNd mem c)
    (hagree : AgreeBelow n mem mem') (hc : c.data + c.len ≤ n) : UnwrapsToNd mem' c := by
  obtain ⟨c', hdr_len, proto, hreach, hh, hproto, hlen, hlo, hhi⟩ := h
  obtain ⟨hreach', hc'⟩ := unwraps_congr hreach hagree hc
  have hbyte : mem (c'.data + hdr_len) = mem' (c'.data + hdr_len) := hagree _ (by omega)
  rw [hbyte] at hlo hhi
  exact ⟨c', hdr_len, proto, hreach', (ipHdr_congr hagree hc').symm.trans hh, hproto, hlen, hlo, hhi⟩

/-- A copy of a recognised frame is recognised. -/
theorem fannedOut_of_sameFrame {c : Frame} (h : FannedOut f) (hsame : SameFrame c f) :
    FannedOut c := by
  rcases h with ⟨off, hoff⟩ | ⟨hmulti, off, hoff, hnd⟩
  · exact Or.inl ⟨off, hoff.of_sameFrame hsame⟩
  · have hoff' := hoff.of_sameFrame hsame
    obtain ⟨⟨hlen, hagree⟩, -⟩ := hsame
    have hle := hoff.off_le
    refine Or.inr ⟨?_, off, hoff', ?_⟩
    · rw [isMulticast, hagree 0 (by omega)]
      exact hmulti
    · rw [hlen]
      apply hnd.congr
      · intro i hi
        exact (hagree i hi).symm
      · dsimp only
        omega

/-- INTERNAL: the classification of a recognised frame returns, in every process. -/
theorem FannedOut.classified (h : FannedOut f) (kni : KniConf) :
    ∃ r, Classified kni f r ∧ (r = .arp ∨ r = .ndp) := by
  rcases h with harp | ⟨hmulti, off, hoff, hnd⟩
  · exact ⟨.arp, ⟨0, protocolFilter_arp harp kni 0⟩, Or.inl rfl⟩
  · obtain ⟨depth, hd⟩ := (protocolFilterIp_ndp_iff kni _ _).mpr hnd
    refine ⟨.ndp, ⟨depth, ?_⟩, Or.inr rfl⟩
    rw [protocolFilter_ipv6 hoff, hmulti, if_neg (by simp)]
    exact hd

theorem FannedOut.of_classified (h : FannedOut f) (hr : Classified kni f r) :
    r = .arp ∨ r = .ndp := by
  obtain ⟨r', hr', hkind⟩ := h.classified kni
  rw [hr.unique hr']
  exact hkind

end FStack.Analysis
