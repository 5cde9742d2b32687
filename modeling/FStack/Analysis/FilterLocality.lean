import FStack.Analysis.FilterTermination

/-!
# Classification reads the packet only

Where the code reads behind the end of a packet, what it reads does not decide anything: an
extension header that would begin there is cut off by the next length test.  Unwrapping a copy of a
packet therefore meets the same headers, although the bytes behind it differ (`unwraps_congr`).
-/

set_option autoImplicit false

namespace FStack.Analysis

open FStack.Model FStack.Prelude

variable {c c' : IpCall} {proto : UInt8}

/-- The bytes below `n` are the same. -/
def AgreeBelow (n : ℕ) (mem mem' : Memory) : Prop := ∀ i < n, mem i = mem' i

variable {n : ℕ} {mem mem' : Memory}

theorem extHdrLen_isSome_congr (c : HdrLenCall) :
    (extHdrLen mem c).isSome = (extHdrLen mem' c).isSome := by
  rw [extHdrLen, extHdrLen]
  generalize c.proto.toNat = proto
  split <;> rfl

/-- INTERNAL: the length byte of an extension header counts only if it lies in the packet.
SOURCE: lib/ff_dpdk_kni.c:250-277 -/
theorem getIpv6HdrLenStep_congr (hagree : AgreeBelow n mem mem') {c : HdrLenCall}
    (hc : c.data + c.len ≤ n) : getIpv6HdrLenStep mem c = getIpv6HdrLenStep mem' c := by
  by_cases hlen : 2 ≤ c.len
  · have h0 : mem c.data = mem' c.data := hagree _ (by omega)
    have h1 : mem (c.data + 1) = mem' (c.data + 1) := hagree _ (by omega)
    have hext : extHdrLen mem c = extHdrLen mem' c := by
      rw [extHdrLen, extHdrLen, h1]
    rw [getIpv6HdrLenStep, getIpv6HdrLenStep, hext, h0]
  · -- every header is longer than the one byte that is left
    have hshort : ∀ mem : Memory, getIpv6HdrLenStep mem c =
        if (extHdrLen mem c).isSome then .ret c.len else .ret 0 := by
      intro mem
      rw [getIpv6HdrLenStep]
      cases he : extHdrLen mem c with
      | none => rfl
      | some ext =>
        have hpos := extHdrLen_pos he
        dsimp only
        rw [if_pos (by omega)]
        rfl
    rw [hshort, hshort, extHdrLen_isSome_congr]

theorem getIpv6HdrLen_congr (hagree : AgreeBelow n mem mem') (c : HdrLenCall)
    (hc : c.data + c.len ≤ n) : getIpv6HdrLen mem c = getIpv6HdrLen mem' c := by
  fun_induction getIpv6HdrLen mem c with
  | case1 c k hret =>
    rw [getIpv6HdrLenStep_congr hagree hc] at hret
    rw [getIpv6HdrLen]
    split
    · rename_i k' hret'
      rw [hret] at hret'
      cases hret'
      rfl
    · rename_i hcall
      rw [hret] at hcall
      cases hcall
  | case2 c ext c' hcall ih =>
    obtain ⟨-, hsum, hdata⟩ := getIpv6HdrLenStep_call hcall
    have hrec := ih (by omega)
    rw [getIpv6HdrLenStep_congr hagree hc] at hcall
    rw [hrec]
    conv_rhs => rw [getIpv6HdrLen]
    split
    · rename_i hret
      rw [hcall] at hret
      cases hret
    · rename_i hcall'
      rw [hcall] at hcall'
      cases hcall'
      rfl

/-- INTERNAL: the header part.
SOURCE: lib/ff_dpdk_kni.c:305-329 -/
theorem ipHdr_congr (hagree : AgreeBelow n mem mem') (hc : c.data + c.len ≤ n) :
    ipHdr mem c = ipHdr mem' c := by
  rw [ipHdr, ipHdr]
  split
  · split
    · rfl
    · rename_i hlen
      rw [hagree c.data (by omega), hagree (c.data + 9) (by omega)]
  · split
    · split
      · rfl
      · rename_i hlen
        rw [hagree (c.data + 6) (by omega), getIpv6HdrLen_congr hagree _ (by dsimp only; omega)]
    · rfl

theorem ipHdr_le {hdr_len : ℕ} (h : ipHdr mem c = some (hdr_len, proto)) : hdr_len ≤ c.len := by
  rw [ipHdr] at h
  split at h
  · split at h
    · cases h
    · dsimp only at h
      split at h
      · cases h
      · cases h
        omega
  · split at h
    · split at h
      · cases h
      · dsimp only at h
        split at h
        · cases h
        · cases h
          omega
    · cases h

/-- INTERNAL: TCP and UDP are left to KNI or are unknown.
SOURCE: lib/ff_dpdk_kni.c:196-228 -/
theorem protocolFilterL4_cases (port : ℕ) (bitmap : ℕ → UInt8) :
    protocolFilterL4 port bitmap = .kni ∨ protocolFilterL4 port bitmap = .unknown := by
  rw [protocolFilterL4]
  split
  · exact Or.inl rfl
  · exact Or.inr rfl

theorem protocolFilterTcp_cases (conf : KniConf) (mem : Memory) (data len : ℕ) :
    protocolFilterTcp conf mem data len = .kni ∨ protocolFilterTcp conf mem data len = .unknown := by
  rw [protocolFilterTcp]
  split
  · exact Or.inr rfl
  · exact protocolFilterL4_cases _ _

theorem protocolFilterUdp_cases (conf : KniConf) (mem : Memory) (data len : ℕ) :
    protocolFilterUdp conf mem data len = .kni ∨ protocolFilterUdp conf mem data len = .unknown := by
  rw [protocolFilterUdp]
  split
  · exact Or.inr rfl
  · exact protocolFilterL4_cases _ _

/-- INTERNAL: the answers about a payload that does not encapsulate another packet.
SOURCE: lib/ff_dpdk_kni.c:331-367 -/
theorem protocolFilterPayload_ret {conf : KniConf} {mem : Memory} {next next_len : ℕ}
    {r : FilterReturn} (h : protocolFilterPayload conf mem proto next next_len = .ret r) :
    r = .kni ∨ r = .unknown ∨ r = .ospf ∨
      proto.toNat = 58 ∧ r = protocolFilterIcmp6 mem next next_len := by
  rw [protocolFilterPayload] at h
  split at h
  · cases h
    exact Or.inr (Or.inr (Or.inl rfl))
  · rw [Outcome.ret.injEq] at h
    rw [← h]
    split
    · cases protocolFilterTcp_cases conf mem next next_len with
      | inl hk => exact Or.inl hk
      | inr hu => exact Or.inr (Or.inl hu)
    · exact Or.inr (Or.inl rfl)
  · rw [Outcome.ret.injEq] at h
    rw [← h]
    split
    · cases protocolFilterUdp_cases conf mem next next_len with
      | inl hk => exact Or.inl hk
      | inr hu => exact Or.inr (Or.inl hu)
    · exact Or.inr (Or.inl rfl)
  · cases h
  · cases h
  · rename_i hproto
    cases h
    exact Or.inr (Or.inr (Or.inr ⟨hproto, rfl⟩))
  · cases h
    exact Or.inr (Or.inl rfl)

theorem protocolFilterIcmp6_ne_arp (mem : Memory) (data len : ℕ) :
    protocolFilterIcmp6 mem data len ≠ .arp := by
  rw [protocolFilterIcmp6]
  split
  · intro h
    cases h
  · split
    · intro h
      cases h
    · intro h
      cases h

/-- INTERNAL: an IP packet is never taken for ARP. -/
theorem protocolFilterIp_ne_arp (conf : KniConf) (mem : Memory) (depth : ℕ) (c : IpCall) :
    protocolFilterIp conf mem depth c ≠ some .arp := by
  induction depth generalizing c with
  | zero =>
    intro h
    cases h
  | succ depth ih =>
    rw [protocolFilterIp, TailCall.eval]
    cases hs : protocolFilterIpStep conf mem c with
    | call c' => exact ih c'
    | ret r =>
      dsimp only
      rw [ne_eq, Option.some.injEq]
      intro harp
      rw [harp, protocolFilterIpStep] at hs
      split at hs
      · cases hs
      · rcases protocolFilterPayload_ret hs with h | h | h | ⟨-, h⟩
        · cases h
        · cases h
        · cases h
        · exact protocolFilterIcmp6_ne_arp _ _ _ h.symm

/-- INTERNAL: an encapsulated packet lies within the one around it.
SOURCE: lib/ff_dpdk_kni.c:328-329 -/
theorem Encapsulates.congr (h : Encapsulates mem c c') (hagree : AgreeBelow n mem mem')
    (hc : c.data + c.len ≤ n) :
    Encapsulates mem' c c' ∧ c'.data + c'.len ≤ n := by
  obtain ⟨hdr_len, proto, hh, hp⟩ := h
  have hle := ipHdr_le hh
  refine ⟨⟨hdr_len, proto, (ipHdr_congr hagree hc).symm.trans hh, hp⟩, ?_⟩
  rcases hp with ⟨-, rfl⟩ | ⟨-, rfl⟩
  · dsimp only
    omega
  · dsimp only
    omega

/-- The headers met while unwrapping a packet are the same for equal bytes. -/
theorem unwraps_congr (h : Relation.ReflTransGen (Encapsulates mem) c c')
    (hagree : AgreeBelow n mem mem') (hc : c.data + c.len ≤ n) :
    Relation.ReflTransGen (Encapsulates mem') c c' ∧ c'.data + c'.len ≤ n := by
  induction h with
  | refl => exact ⟨Relation.ReflTransGen.refl, hc⟩
  | tail _ henc ih =>
    obtain ⟨henc', hle⟩ := henc.congr hagree ih.2
    exact ⟨ih.1.tail henc', hle⟩

end FStack.Analysis
