import FStack.Model.PacketAccess
import FStack.Analysis.FilterLocality

/-!
# Classification and the end of the frame

Every header that `protocol_filter_ip` and the filters behind it read is tested for its
length first, and a length is only reduced by what was tested.  Three places are not
guarded like that: `protocol_filter` asks for the six bytes of an address where it reads
the fourteen of an Ethernet header, it does not ask for the four bytes of a VLAN tag at
all, and `get_ipv6_hdr_len` reads the length byte of an extension header before it knows
that there is one.

`protocolFilter_staysInFrame_iff` says that these are the only ones.
-/

set_option autoImplicit false

namespace FStack.Analysis

open FStack.Prelude FStack.Model

/-- A read lies in a frame of `len` bytes; a subtraction does not go below zero. -/
def InFrame (len : ℕ) : FrameAccess → Prop
  | .read off => off < len
  | .sub a b => b ≤ a

@[simp] theorem inFrame_read (len off : ℕ) : InFrame len (.read off) ↔ off < len := Iff.rfl

@[simp] theorem inFrame_sub (len a b : ℕ) : InFrame len (.sub a b) ↔ b ≤ a := Iff.rfl

/-- What classifying a frame of `len` bytes reads and subtracts, in `protocol_filter` and in
every activation of `protocol_filter_ip` that it causes. -/
def FilterAccess (conf : KniConf) (mem : Memory) (len : ℕ) (e : FrameAccess) : Prop :=
  e ∈ (protocolFilterStepA conf mem len).log ∨
    ∃ c c', (protocolFilterStepA conf mem len).val = .call c ∧
      TailCall.Reaches (fun c => (protocolFilterIpStepA conf mem c).val) c c' ∧
      e ∈ (protocolFilterIpStepA conf mem c').log

/-- Classification does not leave the frame. -/
def StaysInFrame (conf : KniConf) (mem : Memory) (len : ℕ) : Prop :=
  ∀ e, FilterAccess conf mem len e → InFrame len e

/-! ## The frames for which this holds -/

/-- The header types whose length is read from their second byte: the option headers and the
authentication header. -/
def HasLengthByte (proto : UInt8) : Prop := proto.toNat ∈ [0, 43, 60, 135, 139, 140, 51]

/-- The extension header at `h` ends inside the packet, in front of the header `h'`. -/
def ExtFollows (mem : Memory) (h h' : HdrLenCall) : Prop :=
  ∃ ext, extHdrLen mem h = some ext ∧ ext < h.len ∧ h' = ⟨mem h.data, h.data + ext, h.len - ext⟩

/-- The extension headers from `h` on lead to one that has a length byte, with less than two bytes
of the packet left for it. -/
def CutFrom (mem : Memory) (h : HdrLenCall) : Prop :=
  ∃ h', Relation.ReflTransGen (ExtFollows mem) h h' ∧ HasLengthByte h'.proto ∧ h'.len < 2

/-- An IPv6 packet that is cut off in its extension headers. -/
def CutExtHdr (mem : Memory) (c : IpCall) : Prop :=
  c.eth_frame_type = RTE_ETHER_TYPE_IPV6 ∧ 40 ≤ c.len ∧
    CutFrom mem ⟨mem (c.data + 6), c.data + 40, c.len - 40⟩

/-- `c` is the IP packet of a frame that is not sent to a group address; an IPv4 packet is looked
at with KNI only. -/
def IpPayload (conf : KniConf) (mem : Memory) (len : ℕ) (c : IpCall) : Prop :=
  isMulticast mem = false ∧
    (be16 mem 12 ≠ RTE_ETHER_TYPE_VLAN ∧ c = ⟨14, len - 14, be16 mem 12⟩ ∨
      be16 mem 12 = RTE_ETHER_TYPE_VLAN ∧ c = ⟨18, len - 18, be16 mem 16⟩) ∧
    (c.eth_frame_type = RTE_ETHER_TYPE_IPV6 ∨
      c.eth_frame_type = RTE_ETHER_TYPE_IPV4 ∧ conf.enable_kni = true)

/-- The frame is too short to be looked at, or it has a whole Ethernet header, with its VLAN tag, and
no IPv6 packet met while unwrapping it is cut off in its extension headers. -/
def WellCut (conf : KniConf) (mem : Memory) (len : ℕ) : Prop :=
  len < 6 ∨
    14 ≤ len ∧ (be16 mem 12 = RTE_ETHER_TYPE_VLAN → 18 ≤ len) ∧
      ∀ c, IpPayload conf mem len c →
        ∀ c', Relation.ReflTransGen (Encapsulates mem) c c' → ¬ CutExtHdr mem c'

/-! ## Extension headers -/

variable {n : ℕ} {mem : Memory}

/-- The length byte is the only one read for the length.
SOURCE: lib/ff_dpdk_kni.c:250-269 -/
theorem every_extHdrLenA (h : HdrLenCall) :
    (extHdrLenA mem h).Every (InFrame n) ↔ (HasLengthByte h.proto → h.data + 1 < n) := by
  unfold extHdrLenA HasLengthByte
  generalize h.proto.toNat = p
  split <;> simp_all

theorem getIpv6HdrLenStep_call_iff {h h' : HdrLenCall} :
    (∃ ext, getIpv6HdrLenStep mem h = .call ext h') ↔ ExtFollows mem h h' := by
  unfold getIpv6HdrLenStep ExtFollows
  cases extHdrLen mem h with
  | none => simp
  | some ext =>
    by_cases hle : h.len ≤ ext
    · simp only [hle, if_true, reduceCtorEq, exists_false, Option.some.injEq, false_iff]
      rintro ⟨_, rfl, hlt, -⟩
      omega
    · simp only [hle, if_false, HdrLenStep.call.injEq, Option.some.injEq]
      constructor
      · rintro ⟨_, rfl, rfl⟩
        exact ⟨ext, rfl, by omega, rfl⟩
      · rintro ⟨_, rfl, -, rfl⟩
        exact ⟨ext, rfl, rfl⟩

/-- One activation of `get_ipv6_hdr_len` on a rest that ends with the frame.
SOURCE: lib/ff_dpdk_kni.c:245-279 -/
theorem every_getIpv6HdrLenStepA (h : HdrLenCall) (hn : h.data + h.len = n) :
    (getIpv6HdrLenStepA mem h).Every (InFrame n) ↔ ¬ (HasLengthByte h.proto ∧ h.len < 2) := by
  unfold getIpv6HdrLenStepA
  rw [Logged.every_bind, every_extHdrLenA, extHdrLenA_val]
  have hguard : (HasLengthByte h.proto → h.data + 1 < n) ↔
      ¬ (HasLengthByte h.proto ∧ h.len < 2) := by
    rw [not_and]
    refine forall_congr' fun _ => ?_
    omega
  rw [hguard]
  refine and_iff_left ?_
  cases hext : extHdrLen mem h with
  | none => simp
  | some ext =>
    have hpos := extHdrLen_pos hext
    dsimp only
    split
    · simp
    · simp only [Logged.every_bind, readByte_every, Logged.every_emit, inFrame_read, inFrame_sub,
        Logged.every_pure, and_true]
      omega

/-- A walk that is cut off is cut off here or further on. -/
theorem cutFrom_iff (h : HdrLenCall) :
    CutFrom mem h ↔
      (HasLengthByte h.proto ∧ h.len < 2) ∨ ∃ h', ExtFollows mem h h' ∧ CutFrom mem h' := by
  constructor
  · rintro ⟨h', hwalk, hcut⟩
    rcases Relation.ReflTransGen.cases_head hwalk with rfl | ⟨h₁, hstep, hwalk⟩
    · exact .inl hcut
    · exact .inr ⟨h₁, hstep, h', hwalk, hcut⟩
  · rintro (hcut | ⟨h₁, hstep, h', hwalk, hcut⟩)
    · exact ⟨h, .refl, hcut⟩
    · exact ⟨h', .head hstep hwalk, hcut⟩

/-- The walk over the extension headers stays in the frame unless it is cut off.
SOURCE: lib/ff_dpdk_kni.c:245-279 -/
theorem every_getIpv6HdrLenA (h : HdrLenCall) (hn : h.data + h.len = n) :
    (getIpv6HdrLenA mem h).Every (InFrame n) ↔ ¬ CutFrom mem h := by
  fun_induction getIpv6HdrLenA mem h with
  | case1 h k log heq =>
    have hhere := @every_getIpv6HdrLenStepA n mem h hn
    have hstep := getIpv6HdrLenStepA_val mem h
    rw [heq] at hhere hstep
    have hlast : ¬ ∃ h', ExtFollows mem h h' ∧ CutFrom mem h' := by
      rintro ⟨h', hfollows, -⟩
      obtain ⟨ext, hcall⟩ := getIpv6HdrLenStep_call_iff.mpr hfollows
      rw [← hstep] at hcall
      cases hcall
    rw [cutFrom_iff, or_iff_left hlast]
    exact hhere
  | case2 h ext h' log heq ih =>
    have hhere := @every_getIpv6HdrLenStepA n mem h hn
    have hstep := getIpv6HdrLenStepA_val mem h
    rw [heq] at hhere hstep
    have hcall : getIpv6HdrLenStep mem h = .call ext h' := hstep.symm
    obtain ⟨-, hsum, hdata⟩ := getIpv6HdrLenStep_call hcall
    have hnext : (∃ h₁, ExtFollows mem h h₁ ∧ CutFrom mem h₁) ↔ CutFrom mem h' := by
      constructor
      · rintro ⟨h₁, hfollows, hcut⟩
        obtain ⟨ext', hcall'⟩ := getIpv6HdrLenStep_call_iff.mpr hfollows
        rw [hcall] at hcall'
        cases hcall'
        exact hcut
      · intro hcut
        exact ⟨h', getIpv6HdrLenStep_call_iff.mp ⟨ext, hcall⟩, hcut⟩
    rw [cutFrom_iff, hnext, not_or, ← ih (by omega), ← hhere]
    simp only [Logged.Every, List.mem_append]
    exact ⟨fun hall => ⟨fun e he => hall e (.inl he), fun e he => hall e (.inr he)⟩,
      fun hall e he => he.elim (hall.1 e) (hall.2 e)⟩

/-! ## One activation of `protocol_filter_ip` -/

/-- An IPv4 header has its 20 bytes when it is read.
SOURCE: lib/ff_dpdk_kni.c:305-314 -/
theorem every_ipHdrA_ipv4 (c : IpCall) (hn : c.data + c.len = n)
    (h4 : c.eth_frame_type = RTE_ETHER_TYPE_IPV4) : (ipHdrA mem c).Every (InFrame n) := by
  unfold ipHdrA
  rw [if_pos h4]
  split
  · simp
  · simp only [Logged.every_bind, readByte_every, readByte_val, inFrame_read]
    refine ⟨by omega, ?_⟩
    by_cases hlen : c.len < ((mem c.data).toNat &&& 15) <<< 2
    · simp [hlen]
    · simp only [hlen, if_false, Logged.every_bind, readByte_every, inFrame_read,
        Logged.every_pure, and_true]
      omega

/-- An IPv6 header has its 40 bytes when it is read, and then its extension headers are
walked over.
SOURCE: lib/ff_dpdk_kni.c:316-325 -/
theorem every_ipHdrA_ipv6 (c : IpCall) (hn : c.data + c.len = n)
    (h6 : c.eth_frame_type = RTE_ETHER_TYPE_IPV6) (h40 : 40 ≤ c.len) :
    (ipHdrA mem c).Every (InFrame n) ↔
      ¬ CutFrom mem ⟨mem (c.data + 6), c.data + 40, c.len - 40⟩ := by
  have h4 : c.eth_frame_type ≠ RTE_ETHER_TYPE_IPV4 := by
    rw [h6]
    decide
  unfold ipHdrA
  rw [if_neg h4, if_pos h6, if_neg (by omega)]
  simp only [Logged.every_bind, readByte_every, readByte_val, inFrame_read, Logged.every_emit,
    inFrame_sub]
  rw [every_getIpv6HdrLenA _ (by dsimp only; omega)]
  constructor
  · rintro ⟨-, -, hwalk, -⟩
    exact hwalk
  · intro hwalk
    refine ⟨by omega, h40, hwalk, ?_⟩
    split <;> simp

/-- The header part.
SOURCE: lib/ff_dpdk_kni.c:305-329 -/
theorem every_ipHdrA (c : IpCall) (hn : c.data + c.len = n) :
    (ipHdrA mem c).Every (InFrame n) ↔ ¬ CutExtHdr mem c := by
  unfold CutExtHdr
  by_cases h4 : c.eth_frame_type = RTE_ETHER_TYPE_IPV4
  · refine iff_of_true (every_ipHdrA_ipv4 c hn h4) ?_
    rintro ⟨h6, -⟩
    rw [h4] at h6
    exact absurd h6 (by decide)
  by_cases h6 : c.eth_frame_type = RTE_ETHER_TYPE_IPV6
  · by_cases h40 : 40 ≤ c.len
    · rw [every_ipHdrA_ipv6 c hn h6 h40]
      simp only [h6, h40, true_and]
    · refine iff_of_true ?_ (fun hcut => h40 hcut.2.1)
      unfold ipHdrA
      rw [if_neg h4, if_pos h6, if_pos (by omega)]
      simp
  · refine iff_of_true ?_ (fun hcut => h6 hcut.1)
    unfold ipHdrA
    rw [if_neg h4, if_neg h6]
    simp

/-- The filters behind the IP header test the length of what they read.
SOURCE: lib/ff_dpdk_kni.c:206-228, 281-294, 331-367 -/
theorem every_protocolFilterPayloadA (conf : KniConf) (proto : UInt8) (next next_len : ℕ)
    (hn : next + next_len = n) :
    (protocolFilterPayloadA conf mem proto next next_len).Every (InFrame n) := by
  have htcp : (protocolFilterTcpA conf mem next next_len).Every (InFrame n) := by
    unfold protocolFilterTcpA readLe16
    split
    · simp
    · simp
      omega
  have hudp : (protocolFilterUdpA conf mem next next_len).Every (InFrame n) := by
    unfold protocolFilterUdpA readLe16
    split
    · simp
    · simp
      omega
  have hicmp : (protocolFilterIcmp6A mem next next_len).Every (InFrame n) := by
    unfold protocolFilterIcmp6A
    split
    · simp
    · simp
      omega
  unfold protocolFilterPayloadA
  split
  · simp
  · split <;> simp [htcp]
  · split <;> simp [hudp]
  · simp
  · simp
  · simp [hicmp]
  · simp

/-- One activation of `protocol_filter_ip` on a rest that ends with the frame stays in the frame,
unless the packet is cut off in its extension headers.
SOURCE: lib/ff_dpdk_kni.c:297-368 -/
theorem every_protocolFilterIpStepA (conf : KniConf) (c : IpCall) (hn : c.data + c.len = n) :
    (protocolFilterIpStepA conf mem c).Every (InFrame n) ↔ ¬ CutExtHdr mem c := by
  unfold protocolFilterIpStepA
  rw [Logged.every_bind, every_ipHdrA c hn, ipHdrA_val]
  refine and_iff_left ?_
  cases hh : ipHdr mem c with
  | none => simp
  | some p =>
    obtain ⟨hdr_len, proto⟩ := p
    have hle := ipHdr_le hh
    simp only [Logged.every_bind, Logged.every_emit, inFrame_sub]
    exact ⟨hle, every_protocolFilterPayloadA conf proto _ _ (by omega)⟩

/-- What is left of the packet ends with the frame, however often it was unwrapped. -/
theorem unwraps_end {c c' : IpCall} (h : Relation.ReflTransGen (Encapsulates mem) c c') :
    c'.data + c'.len = c.data + c.len := by
  induction h with
  | refl => rfl
  | tail _ hstep ih =>
    obtain ⟨hdr_len, proto, hh, hp⟩ := hstep
    have hle := ipHdr_le hh
    rcases hp with ⟨-, rfl⟩ | ⟨-, rfl⟩
    · dsimp only
      omega
    · dsimp only
      omega

/-! ## The frame -/

/-- `protocol_filter` itself needs the Ethernet header and the VLAN tag.
SOURCE: lib/ff_dpdk_if.c:1607-1634 -/
theorem every_protocolFilterStepA (conf : KniConf) (len : ℕ) (hlt : len < 65536) :
    (protocolFilterStepA conf mem len).Every (InFrame len) ↔
      len < 6 ∨ 14 ≤ len ∧ (be16 mem 12 = RTE_ETHER_TYPE_VLAN → 18 ≤ len) := by
  unfold protocolFilterStepA
  by_cases h6 : len < 6
  · simp [h6]
  have h12 : (readBe16 mem 12).val = be16 mem 12 := rfl
  have hether : (etherHdrA mem len).Every (InFrame len) ↔
      14 ≤ len ∧ (be16 mem 12 = RTE_ETHER_TYPE_VLAN → 18 ≤ len) := by
    unfold etherHdrA
    rw [Logged.every_bind, Logged.every_bind, h12]
    by_cases hvlan : be16 mem 12 = RTE_ETHER_TYPE_VLAN
    · simp [hvlan, readBe16, subLen, sub16]
      omega
    · simp [hvlan, readBe16, subLen]
      omega
  rw [if_neg h6, Logged.every_bind, hether, or_iff_right h6]
  refine and_iff_left_of_imp fun hlen => ?_
  split
  split
  · simp
  · simp only [Logged.every_bind, readByte_every, inFrame_read, Logged.every_pure, and_true]
    omega

/-- Where the payload begins and which type it has, with a tag or without one.
SOURCE: lib/ff_dpdk_if.c:1616-1626 -/
theorem etherHdr_payload {len : ℕ} (hlt : len < 65536) (h14 : 14 ≤ len)
    (hvlan : be16 mem 12 = RTE_ETHER_TYPE_VLAN → 18 ≤ len) :
    ∃ ty off, etherHdr mem len = (ty, off, len - off) ∧
      ∀ c : IpCall, (be16 mem 12 ≠ RTE_ETHER_TYPE_VLAN ∧ c = ⟨14, len - 14, be16 mem 12⟩ ∨
        be16 mem 12 = RTE_ETHER_TYPE_VLAN ∧ c = ⟨18, len - 18, be16 mem 16⟩) ↔
        c = ⟨off, len - off, ty⟩ := by
  by_cases hv : be16 mem 12 = RTE_ETHER_TYPE_VLAN
  · have h18 := hvlan hv
    refine ⟨be16 mem 16, 18, ?_, fun c => by simp [hv]⟩
    rw [etherHdr, if_pos hv]
    have hsub : sub16 (sub16 len 14) 4 = len - 18 := by
      rw [sub16, sub16]
      omega
    rw [hsub]
  · refine ⟨be16 mem 12, 14, ?_, fun c => by simp [hv]⟩
    rw [etherHdr, if_neg hv]
    have hsub : sub16 len 14 = len - 14 := by
      rw [sub16]
      omega
    rw [hsub]

/-- What `protocol_filter` hands to `ff_kni_proto_filter`.
SOURCE: lib/ff_dpdk_if.c:1613-1656 -/
theorem protocolFilterStep_call_iff (conf : KniConf) (len : ℕ) (hlt : len < 65536) (h14 : 14 ≤ len)
    (hvlan : be16 mem 12 = RTE_ETHER_TYPE_VLAN → 18 ≤ len) (c : IpCall) :
    protocolFilterStep conf mem len = .call c ↔ IpPayload conf mem len c := by
  obtain ⟨ty, off, hether, hpay⟩ := etherHdr_payload hlt h14 hvlan
  unfold IpPayload
  rw [protocolFilterStep, if_neg (by omega), hether, hpay]
  dsimp only
  by_cases harp : ty = RTE_ETHER_TYPE_ARP
  · rw [if_pos harp]
    refine iff_of_false (by simp) ?_
    rintro ⟨-, rfl, h | ⟨h, -⟩⟩
    · exact absurd (harp.symm.trans h) (by decide)
    · exact absurd (harp.symm.trans h) (by decide)
  rw [if_neg harp]
  cases hm : isMulticast mem with
  | true => simp
  | false =>
    simp only [if_false, Bool.false_eq_true, true_and]
    by_cases h6 : ty = RTE_ETHER_TYPE_IPV6
    · rw [if_pos h6, Outcome.call.injEq]
      constructor
      · rintro rfl
        exact ⟨rfl, .inl h6⟩
      · rintro ⟨rfl, -⟩
        rfl
    rw [if_neg h6]
    cases hk : conf.enable_kni with
    | false =>
      refine iff_of_false (by simp) ?_
      rintro ⟨rfl, h | ⟨-, h⟩⟩
      · exact h6 h
      · cases h
    | true =>
      by_cases h4 : ty = RTE_ETHER_TYPE_IPV4
      · simp only [Bool.not_true, Bool.false_eq_true, if_false, h4, ne_eq, not_true_eq_false,
          Outcome.call.injEq, and_true]
        constructor
        · rintro rfl
          exact ⟨rfl, .inr rfl⟩
        · rintro ⟨rfl, -⟩
          rfl
      · refine iff_of_false (by simp [h4]) ?_
        rintro ⟨rfl, h | ⟨h, -⟩⟩
        · exact h6 h
        · exact h4 h

/-- A payload begins inside a frame that has its Ethernet header and its tag. -/
theorem IpPayload.end_eq {conf : KniConf} {len : ℕ} {c : IpCall} (h : IpPayload conf mem len c)
    (h14 : 14 ≤ len) (hvlan : be16 mem 12 = RTE_ETHER_TYPE_VLAN → 18 ≤ len) :
    c.data + c.len = len := by
  obtain ⟨-, ⟨-, rfl⟩ | ⟨hv, rfl⟩, -⟩ := h
  · dsimp only
    omega
  · have := hvlan hv
    dsimp only
    omega

/-- Every byte that classification reads lies in the frame and no length goes below zero, if and only
if the frame has less than six bytes, or a whole Ethernet header with its tag and no IPv6 packet that
is cut off right before the length byte of an extension header.
SOURCE: lib/ff_dpdk_if.c:1607-1657, lib/ff_dpdk_kni.c:206-368 -/
theorem protocolFilter_staysInFrame_iff (conf : KniConf) (mem : Memory) (len : UInt16) :
    StaysInFrame conf mem len.toNat ↔ WellCut conf mem len.toNat := by
  have hlt : len.toNat < 65536 := len.toNat_lt
  have hreach : TailCall.Reaches (fun c => (protocolFilterIpStepA conf mem c).val) =
      Relation.ReflTransGen (Encapsulates mem) := by
    funext c c'
    simp only [protocolFilterIpStepA_val]
    exact propext (reaches_iff conf mem c c')
  have htop := @every_protocolFilterStepA mem conf len.toNat hlt
  -- the accesses of `protocol_filter` and those of `protocol_filter_ip`
  have hsplit : StaysInFrame conf mem len.toNat ↔
      (protocolFilterStepA conf mem len.toNat).Every (InFrame len.toNat) ∧
      ∀ c, protocolFilterStep conf mem len.toNat = .call c →
        ∀ c', Relation.ReflTransGen (Encapsulates mem) c c' →
          (protocolFilterIpStepA conf mem c').Every (InFrame len.toNat) := by
    unfold StaysInFrame FilterAccess
    rw [hreach, protocolFilterStepA_val]
    constructor
    · intro hall
      exact ⟨fun e he => hall e (.inl he),
        fun c hc c' hr e he => hall e (.inr ⟨c, c', hc, hr, he⟩)⟩
    · rintro ⟨hhere, hbelow⟩ e (he | ⟨c, c', hc, hr, he⟩)
      · exact hhere e he
      · exact hbelow c hc c' hr e he
  rw [hsplit, htop]
  unfold WellCut
  by_cases h6 : len.toNat < 6
  · refine iff_of_true ⟨.inl h6, fun c hc => ?_⟩ (.inl h6)
    rw [protocolFilterStep, if_pos h6] at hc
    cases hc
  rw [or_iff_right h6, or_iff_right h6, and_assoc, and_congr_right_iff]
  intro h14
  rw [and_congr_right_iff]
  intro hvlan
  refine forall_congr' fun c => ?_
  rw [protocolFilterStep_call_iff conf len.toNat hlt h14 hvlan c]
  refine forall_congr' fun hpay => forall_congr' fun c' => forall_congr' fun hr => ?_
  have hend := (unwraps_end hr).trans (hpay.end_eq h14 hvlan)
  exact every_protocolFilterIpStepA conf c' hend

/-- A unicast IPv6 frame of 54 bytes: the header says that a hop-by-hop header (0) follows, and
nothing follows. -/
def bareHopByHopFrame : Memory := fun i =>
  if i = 12 then 0x86 else if i = 13 then 0xdd else 0

/-- `get_ipv6_hdr_len` reads byte 55 of a frame of 54 bytes, and a frame of ten bytes is read at
offset 13 and its length reduced by 14. -/
theorem bareHopByHopFrame_leaves_frame :
    ¬ StaysInFrame ⟨false, fun _ => 0, fun _ => 0⟩ bareHopByHopFrame 54 ∧
      ¬ StaysInFrame ⟨false, fun _ => 0, fun _ => 0⟩ bareHopByHopFrame 10 := by
  constructor
  · intro h
    have hcall : (protocolFilterStepA ⟨false, fun _ => 0, fun _ => 0⟩ bareHopByHopFrame 54).val =
        .call ⟨14, 40, RTE_ETHER_TYPE_IPV6⟩ := by
      rw [protocolFilterStepA_val]
      decide
    have hcut : CutExtHdr bareHopByHopFrame ⟨14, 40, RTE_ETHER_TYPE_IPV6⟩ :=
      ⟨rfl, by decide, _, .refl, by simp [HasLengthByte, bareHopByHopFrame], by decide⟩
    refine (every_protocolFilterIpStepA ⟨false, fun _ => 0, fun _ => 0⟩ _ rfl).mp (fun e he => ?_) hcut
    exact h e (.inr ⟨_, _, hcall, .refl, he⟩)
  · intro h
    have hsub : InFrame 10 (.sub 10 14) := h _ (.inl (by decide))
    simp at hsub

end FStack.Analysis
