import FStack.Model.PacketFilter

/-!
# The length of the IPv6 extension headers

RFC 8200 counts the length of a generic extension header in units of 8 bytes, RFC 4302 that of an
authentication header in units of 4, and a fragment header has 8 bytes.  `get_ipv6_hdr_len` knows
the last two and takes the first one for a number of bytes.  A chain of fragment and authentication
headers is therefore walked to its end (`getIpv6HdrLen_chain`), and `protocol_filter_ip` sees the
packet as if it had no extension headers; a generic header at the end of the chain always gives a
wrong length (`getIpv6HdrLen_generic_ne`).
-/

set_option autoImplicit false

namespace FStack.Analysis

open FStack.Prelude FStack.Model

variable {mem mem' : Memory} {c : HdrLenCall} {proto upper : UInt8} {data stop len data' : ℕ}
  {types : List UInt8}

/-! ## Chains of headers -/

/-- The size of the extension header at `data`, as the standards define it; there is none for the
protocols of upper layers. -/
def rfcHdrLen (mem : Memory) (proto : UInt8) (data : ℕ) : Option ℕ :=
  match proto.toNat with
  -- HOPOPTS, ROUTING, DSTOPTS, MH, HIP, SHIM6
  | 0 | 43 | 60 | 135 | 139 | 140 => some (((mem (data + 1)).toNat + 1) * 8)
  -- FRAGMENT
  | 44 => some 8
  -- AH
  | 51 => some (((mem (data + 1)).toNat + 2) * 4)
  | _ => none

/-- A chain of extension headers of the given types stands at `data` and ends in front of `stop`,
where the header of the upper-layer protocol `upper` begins.  The first byte of each header is the
type of the next. -/
inductive ExtChain (mem : Memory) : List UInt8 → UInt8 → ℕ → ℕ → UInt8 → Prop
  | nil {proto : UInt8} {data : ℕ} (h : rfcHdrLen mem proto data = none) :
    ExtChain mem [] proto data data proto
  | cons {types : List UInt8} {proto upper : UInt8} {data size stop : ℕ}
    (h : rfcHdrLen mem proto data = some size)
    (rest : ExtChain mem types (mem data) (data + size) stop upper) :
    ExtChain mem (proto :: types) proto data stop upper

/-- The header types whose size the code takes in the right unit. -/
def FragmentOrAh (proto : UInt8) : Prop := proto.toNat = 44 ∨ proto.toNat = 51

instance (proto : UInt8) : Decidable (FragmentOrAh proto) := inferInstanceAs (Decidable (_ ∨ _))

theorem extHdrLen_eq_none (h : rfcHdrLen mem c.proto c.data = none) : extHdrLen mem c = none := by
  unfold rfcHdrLen at h
  unfold extHdrLen
  split at h <;> simp_all

/-- Whether a header is an extension header is up to its type alone. -/
theorem rfcHdrLen_eq_none (h : rfcHdrLen mem proto data = none) (mem' : Memory) (data' : ℕ) :
    rfcHdrLen mem' proto data' = none := by
  unfold rfcHdrLen at h ⊢
  split at h <;> simp_all

theorem extHdrLen_of_fragmentOrAh (hproto : FragmentOrAh c.proto) :
    extHdrLen mem c = rfcHdrLen mem c.proto c.data := by
  unfold extHdrLen rfcHdrLen
  obtain h | h := hproto <;> simp [h]

/-- Any other extension header has eight times the size that the code takes. -/
theorem extHdrLen_of_generic {mem : Memory} {c : HdrLenCall} {size : ℕ}
    (hproto : ¬ FragmentOrAh c.proto) (hsize : rfcHdrLen mem c.proto c.data = some size) :
    ∃ ext, extHdrLen mem c = some ext ∧ size = ext * 8 := by
  unfold rfcHdrLen at hsize
  unfold extHdrLen
  rw [FragmentOrAh] at hproto
  split at hsize <;> simp_all

/-! ## The walk -/

theorem getIpv6HdrLen_upper (h : extHdrLen mem c = none) :
    getIpv6HdrLen mem c = (0, c.proto) := by
  have hstep : getIpv6HdrLenStep mem c = .ret 0 := by rw [getIpv6HdrLenStep, h]
  rw [getIpv6HdrLen]
  split
  · rename_i n heq
    rw [hstep] at heq
    cases heq
    rfl
  · rename_i ext c' heq
    rw [hstep] at heq
    cases heq

theorem getIpv6HdrLen_ext {ext : ℕ} (h : extHdrLen mem c = some ext) (hlt : ext < c.len) :
    getIpv6HdrLen mem c =
      (ext + (getIpv6HdrLen mem ⟨mem c.data, c.data + ext, c.len - ext⟩).1,
        (getIpv6HdrLen mem ⟨mem c.data, c.data + ext, c.len - ext⟩).2) := by
  have hstep : getIpv6HdrLenStep mem c = .call ext ⟨mem c.data, c.data + ext, c.len - ext⟩ := by
    rw [getIpv6HdrLenStep, h]
    dsimp only
    rw [if_neg (by omega)]
  rw [getIpv6HdrLen]
  split
  · rename_i n heq
    rw [hstep] at heq
    cases heq
  · rename_i ext' c' heq
    rw [hstep] at heq
    cases heq
    rfl

theorem ExtChain.le (h : ExtChain mem types proto data stop upper) : data ≤ stop := by
  induction h with
  | nil => exact Nat.le_refl _
  | cons h rest ih => omega

/-- The walk over fragment and authentication headers.
SOURCE: lib/ff_dpdk_kni.c:245-279 -/
theorem getIpv6HdrLen_chain (h : ExtChain mem types proto data stop upper)
    (htypes : ∀ t ∈ types, FragmentOrAh t) (hstop : stop < data + len) :
    getIpv6HdrLen mem ⟨proto, data, len⟩ = (stop - data, upper) := by
  induction h generalizing len with
  | nil h =>
    rw [getIpv6HdrLen_upper (extHdrLen_eq_none h), Nat.sub_self]
  | @cons types proto upper data size stop h rest ih =>
    have hle := rest.le
    have hext : extHdrLen mem ⟨proto, data, len⟩ = some size := by
      rw [extHdrLen_of_fragmentOrAh (htypes proto (List.mem_cons_self ..)), h]
    rw [getIpv6HdrLen_ext hext (by dsimp only; omega)]
    dsimp only
    rw [ih (fun t ht => htypes t (List.mem_cons_of_mem _ ht)) (by omega)]
    dsimp only
    rw [show size + (stop - (data + size)) = stop - data by omega]

/-- Behind such headers, a generic one that ends the chain counts an eighth of its size.
SOURCE: lib/ff_dpdk_kni.c:252-256 -/
theorem getIpv6HdrLen_generic_lt {pre : List UInt8} {generic : UInt8}
    (h : ExtChain mem (pre ++ [generic]) proto data stop upper) (hpre : ∀ t ∈ pre, FragmentOrAh t)
    (hgeneric : ¬ FragmentOrAh generic) (hstop : stop < data + len) :
    (getIpv6HdrLen mem ⟨proto, data, len⟩).1 < stop - data := by
  induction pre generalizing proto data len with
  | nil =>
    cases h with
    | @cons _ _ _ _ size _ h rest =>
      cases rest with
      | nil hupper =>
        obtain ⟨ext, hext, rfl⟩ := @extHdrLen_of_generic mem ⟨generic, data, len⟩ _ hgeneric h
        have hpos := extHdrLen_pos hext
        rw [getIpv6HdrLen_ext hext (by dsimp only; omega)]
        dsimp only
        -- an upper-layer protocol ends the walk wherever it is met
        have hnone : extHdrLen mem ⟨mem data, data + ext, len - ext⟩ = none := by
          apply extHdrLen_eq_none
          dsimp only
          exact rfcHdrLen_eq_none hupper _ _
        rw [getIpv6HdrLen_upper hnone]
        omega
  | cons t pre ih =>
    cases h with
    | @cons _ _ _ _ size _ h rest =>
      have hle := rest.le
      have hext : extHdrLen mem ⟨t, data, len⟩ = some size := by
        rw [extHdrLen_of_fragmentOrAh (hpre t (List.mem_cons_self ..)), h]
      rw [getIpv6HdrLen_ext hext (by dsimp only; omega)]
      dsimp only
      have : _ < stop - (data + size) :=
        ih rest (fun u hu => hpre u (List.mem_cons_of_mem _ hu))
          (show stop < data + size + (len - size) by omega)
      omega

/-! ## The same bytes elsewhere -/

/-- From `data'` on the second memory holds what the first one holds from `data` on. -/
def SameFrom (mem mem' : Memory) (data data' : ℕ) : Prop := ∀ i, mem' (data' + i) = mem (data + i)

theorem SameFrom.add {mem mem' : Memory} {data data' : ℕ} (h : SameFrom mem mem' data data')
    (n : ℕ) :
    SameFrom mem mem' (data + n) (data' + n) := by
  intro i
  rw [Nat.add_assoc, Nat.add_assoc, h (n + i)]

theorem SameFrom.head (h : SameFrom mem mem' data data') :
    mem' data' = mem data := h 0

/-- The walk reads the bytes from its position on, wherever they are. -/
theorem getIpv6HdrLen_shift (len : ℕ) (proto : UInt8) (h : SameFrom mem mem' data data') :
    getIpv6HdrLen mem' ⟨proto, data', len⟩ = getIpv6HdrLen mem ⟨proto, data, len⟩ := by
  induction len using Nat.strongRecOn generalizing proto data data' with
  | _ len ih =>
    have hext : extHdrLen mem' ⟨proto, data', len⟩ = extHdrLen mem ⟨proto, data, len⟩ := by
      unfold extHdrLen
      dsimp only
      rw [h 1]
    cases hmem : extHdrLen mem ⟨proto, data, len⟩ with
    | none => rw [getIpv6HdrLen_upper (hext.trans hmem), getIpv6HdrLen_upper hmem]
    | some ext =>
      have hpos := extHdrLen_pos hmem
      by_cases hlt : ext < len
      · rw [getIpv6HdrLen_ext (hext.trans hmem) hlt, getIpv6HdrLen_ext hmem hlt]
        dsimp only
        rw [h.head, ih (len - ext) (by omega) _ (h.add ext)]
      · have hstep : getIpv6HdrLenStep mem ⟨proto, data, len⟩ = .ret len := by
          rw [getIpv6HdrLenStep, hmem]
          exact if_pos (Nat.le_of_not_lt hlt)
        have hstep' : getIpv6HdrLenStep mem' ⟨proto, data', len⟩ = .ret len := by
          rw [getIpv6HdrLenStep, hext, hmem]
          exact if_pos (Nat.le_of_not_lt hlt)
        rw [getIpv6HdrLen, getIpv6HdrLen]
        split <;> split <;> simp_all

theorem ipHdr_shift (len eth_frame_type : ℕ) (h : SameFrom mem mem' data data') :
    ipHdr mem' ⟨data', len, eth_frame_type⟩ = ipHdr mem ⟨data, len, eth_frame_type⟩ := by
  unfold ipHdr
  dsimp only
  rw [h.head, h 9, h 6, getIpv6HdrLen_shift _ _ (h.add 40)]

/-- What `protocol_filter_ip` answers when one activation has done `o`. -/
def resume (conf : KniConf) (mem : Memory) (depth : ℕ) : Outcome IpCall FilterReturn →
    Option FilterReturn
  | .ret r => some r
  | .call c => protocolFilterIp conf mem depth c

theorem protocolFilterIp_succ (conf : KniConf) (mem : Memory) (depth : ℕ) (c : IpCall) :
    protocolFilterIp conf mem (depth + 1) c =
      resume conf mem depth (protocolFilterIpStep conf mem c) := by
  rw [protocolFilterIp, TailCall.eval]
  cases protocolFilterIpStep conf mem c <;> rfl

/-- The payload's verdict, if nested packets have the same verdict in both memories. -/
theorem resume_payload_shift {conf : KniConf} {depth next next' : ℕ}
    (hnested : ∀ len eth_frame_type, protocolFilterIp conf mem' depth ⟨next', len, eth_frame_type⟩ =
      protocolFilterIp conf mem depth ⟨next, len, eth_frame_type⟩)
    (h : SameFrom mem mem' next next') (proto : UInt8) (len : ℕ) :
    resume conf mem' depth (protocolFilterPayload conf mem' proto next' len) =
      resume conf mem depth (protocolFilterPayload conf mem proto next len) := by
  have hport : le16 mem' (next' + 2) = le16 mem (next + 2) := by
    rw [le16, le16, h 2, Nat.add_assoc, h 3, Nat.add_assoc]
  unfold protocolFilterPayload
  split
  · rfl
  · rw [protocolFilterTcp, protocolFilterTcp, hport]
    rfl
  · rw [protocolFilterUdp, protocolFilterUdp, hport]
    rfl
  · exact hnested len RTE_ETHER_TYPE_IPV4
  · exact hnested len RTE_ETHER_TYPE_IPV6
  · rw [protocolFilterIcmp6, protocolFilterIcmp6, h.head]
    rfl
  · rfl

/-- The verdict on a packet does not depend on where it stands. -/
theorem protocolFilterIp_shift (conf : KniConf) (depth : ℕ) (h : SameFrom mem mem' data data')
    (len eth_frame_type : ℕ) :
    protocolFilterIp conf mem' depth ⟨data', len, eth_frame_type⟩ =
      protocolFilterIp conf mem depth ⟨data, len, eth_frame_type⟩ := by
  induction depth generalizing data data' len eth_frame_type with
  | zero => rfl
  | succ depth ih =>
    rw [protocolFilterIp_succ, protocolFilterIp_succ, protocolFilterIpStep, protocolFilterIpStep,
      ipHdr_shift len eth_frame_type h]
    cases ipHdr mem ⟨data, len, eth_frame_type⟩ with
    | none => rfl
    | some r =>
      obtain ⟨hdr_len, proto⟩ := r
      exact resume_payload_shift (fun l t => ih (h.add hdr_len) l t) (h.add hdr_len) proto _

/-! ## Packets with and without the chain -/

/-- The packet at `data` without the `total` bytes of extension headers behind its IPv6 header. -/
def withoutExt (mem : Memory) (data total : ℕ) (upper : UInt8) : Memory := fun i =>
  if i = data + 6 then upper
  else if i < data + 40 then mem i
  else mem (i + total)

/-- `get_ipv6_hdr_len` finds the end of the chain behind the IPv6 header at `data`, and the packet
has the verdict of the one without the chain. -/
structure SkipsExt (mem : Memory) (data len stop : ℕ) (upper : UInt8) : Prop where
  hdr_len : getIpv6HdrLen mem ⟨mem (data + 6), data + 40, len - 40⟩ = (stop - (data + 40), upper)
  verdict : ∀ conf depth, protocolFilterIp conf mem depth ⟨data, len, RTE_ETHER_TYPE_IPV6⟩ =
    protocolFilterIp conf (withoutExt mem data (stop - (data + 40)) upper) depth
      ⟨data, len - (stop - (data + 40)), RTE_ETHER_TYPE_IPV6⟩

theorem ExtChain.upper_none (h : ExtChain mem types proto data stop upper) :
    rfcHdrLen mem upper 0 = none := by
  induction h with
  | nil h => exact rfcHdrLen_eq_none h mem 0
  | cons h rest ih => exact ih

/-- Where the walk finds the end of the chain, the payload gets the same verdict. -/
theorem verdict_of_hdrLen {total : ℕ} (hupper : rfcHdrLen mem upper 0 = none)
    (hlen : 40 + total ≤ len)
    (hwalk : getIpv6HdrLen mem ⟨mem (data + 6), data + 40, len - 40⟩ = (total, upper))
    (conf : KniConf) (depth : ℕ) :
    protocolFilterIp conf mem depth ⟨data, len, RTE_ETHER_TYPE_IPV6⟩ =
      protocolFilterIp conf (withoutExt mem data total upper) depth
        ⟨data, len - total, RTE_ETHER_TYPE_IPV6⟩ := by
  cases depth with
  | zero => rfl
  | succ depth =>
    have hnot4 : ¬ RTE_ETHER_TYPE_IPV6 = RTE_ETHER_TYPE_IPV4 := by decide
    have hhdr : ipHdr mem ⟨data, len, RTE_ETHER_TYPE_IPV6⟩ = some (40 + total, upper) := by
      rw [ipHdr, if_neg hnot4, if_pos rfl, if_neg (by dsimp only; omega)]
      dsimp only
      rw [hwalk, if_neg (by dsimp only; omega)]
    have hproto : withoutExt mem data total upper (data + 6) = upper := if_pos rfl
    have hnone : extHdrLen (withoutExt mem data total upper)
        ⟨upper, data + 40, len - total - 40⟩ = none :=
      extHdrLen_eq_none (rfcHdrLen_eq_none hupper _ _)
    have hhdr' : ipHdr (withoutExt mem data total upper) ⟨data, len - total, RTE_ETHER_TYPE_IPV6⟩ =
        some (40, upper) := by
      rw [ipHdr, if_neg hnot4, if_pos rfl, if_neg (by dsimp only; omega)]
      dsimp only
      rw [hproto, getIpv6HdrLen_upper hnone, if_neg (by dsimp only; omega), Nat.add_zero]
    have hsame : SameFrom mem (withoutExt mem data total upper) (data + (40 + total))
        (data + 40) := by
      intro i
      rw [withoutExt, if_neg (by omega), if_neg (by omega),
        show data + 40 + i + total = data + (40 + total) + i by omega]
    rw [protocolFilterIp_succ, protocolFilterIp_succ, protocolFilterIpStep, protocolFilterIpStep,
      hhdr, hhdr']
    dsimp only
    rw [show len - total - 40 = len - (40 + total) by omega]
    exact (resume_payload_shift (fun l t => protocolFilterIp_shift conf depth hsame l t)
      hsame upper _).symm

/-- A packet whose chain has fragment and authentication headers only is classified as the one
without the chain.
SOURCE: lib/ff_dpdk_kni.c:245-279, lib/ff_dpdk_kni.c:315-367 -/
theorem skipsExt_of_fragmentOrAh {mem : Memory} {types : List UInt8} {data len stop : ℕ}
    {upper : UInt8} (hchain : ExtChain mem types (mem (data + 6)) (data + 40) stop upper)
    (hstop : stop < data + len) (htypes : ∀ t ∈ types, FragmentOrAh t) :
    SkipsExt mem data len stop upper := by
  have hle := hchain.le
  have hwalk := getIpv6HdrLen_chain hchain htypes (show stop < data + 40 + (len - 40) by omega)
  exact ⟨hwalk, verdict_of_hdrLen hchain.upper_none (by omega) hwalk⟩

/-- No packet is, whose chain ends with a generic header behind such ones. -/
theorem not_skipsExt_of_generic {pre : List UInt8} {generic : UInt8}
    (hchain : ExtChain mem (pre ++ [generic]) (mem (data + 6)) (data + 40) stop upper)
    (hstop : stop < data + len) (hpre : ∀ t ∈ pre, FragmentOrAh t)
    (hgeneric : ¬ FragmentOrAh generic) : ¬ SkipsExt mem data len stop upper := by
  intro h
  have hle := hchain.le
  have hlt := getIpv6HdrLen_generic_lt hchain hpre hgeneric
    (show stop < data + 40 + (len - 40) by omega)
  rw [h.hdr_len] at hlt
  exact Nat.lt_irrefl _ hlt

/-- An IPv6 header, a fragment header and a UDP header. -/
def fragmentFrame : Memory := fun i => if i = 6 then 44 else if i = 40 then 17 else 0

theorem skipsExt_fragmentFrame : SkipsExt fragmentFrame 0 56 48 17 := by
  have hchain : ExtChain fragmentFrame [44] (fragmentFrame (0 + 6)) (0 + 40) 48 17 :=
    .cons (show _ = some 8 from rfl) (.nil rfl)
  exact skipsExt_of_fragmentOrAh hchain (by decide) (List.forall_mem_singleton.mpr (by decide))

/-- An IPv6 header, a hop-by-hop header of 8 bytes and a UDP header. -/
def hopByHopFrame : Memory := fun i => if i = 40 then 17 else 0

/-- The walk stops after one byte. -/
theorem hopByHopFrame_not_skipped :
    ¬ ∀ (mem : Memory) (types : List UInt8) (data len stop : ℕ) (upper : UInt8),
      ExtChain mem types (mem (data + 6)) (data + 40) stop upper → stop < data + len →
        SkipsExt mem data len stop upper := by
  intro h
  have hchain : ExtChain hopByHopFrame ([] ++ [0]) (hopByHopFrame (0 + 6)) (0 + 40) 48 17 :=
    .cons (show _ = some 8 from rfl) (.nil rfl)
  exact not_skipsExt_of_generic hchain (by decide) (List.forall_mem_nil _) (by decide)
    (h hopByHopFrame [0] 0 56 48 17 hchain (by decide))

end FStack.Analysis
