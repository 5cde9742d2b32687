import FStack.Analysis.OffloadPaths
import FStack.Model.TxCopy
import FStack.Prelude.ByteMemory

/-!
# Packets sent by copy

The segments that the loop has filled are linked in the order of their numbers, and hold the bytes
copied so far (`SegsFilled`).  Each round adds one (`fillSeg_linked`), and when an allocation fails all of
them are freed along the links.  So a packet is either queued as one chain with all its bytes, or
dropped with everything freed once (`copyLoop_spec`).

Afterwards the offload code may write the checksum field of the TCP header of IPv4, which is in the first
segment (`sendOffload_data`).  The process's own model of a raw packet counts the same segments
(`rawPacketSend_copies`).
-/

set_option autoImplicit false

namespace FStack.Analysis

open FStack.Model FStack.Prelude

variable {bytes : List UInt8} {st : TxSend} {j k : ℕ} {copy : ℕ → ℕ → Option (List UInt8)}
  {alloc : ℕ → Bool}
variable {fresh : ℕ → Memory} {st' : TxSend} {n rest total : ℕ}

/-- The bytes of a segment. -/
def segBytes (s : TxSeg) : List UInt8 := readAt s.data 0 s.data_len

/-- The bytes of the first `j` segments. -/
def segsBytes (segs : ℕ → TxSeg) (j : ℕ) : List UInt8 :=
  (List.range j).flatMap fun i => segBytes (segs i)

/-- The first `j` segments are filled with `bytes`, and linked. -/
structure SegsFilled (bytes : List UInt8) (st : TxSend) (j : ℕ) : Prop where
  next : ∀ i < j, (st.segs i).next = if i + 1 < j then some (i + 1) else none
  room : ∀ i < j, (st.segs i).data_len ≤ RTE_MBUF_DEFAULT_DATAROOM
  copied : segsBytes st.segs j = bytes
  nb_segs : st.nb_segs = j % 65536

/-- Nothing has been freed or queued yet. -/
structure SendPending (total : ℕ) (st : TxSend) : Prop where
  pkt_len : st.pkt_len = total
  freed : st.freed = []
  bsdFreed : st.bsdFreed = 0
  queued : st.queued = []

/-! ## Links -/

theorem linkedSegs_eq (segs : ℕ → TxSeg) (n i : ℕ)
    (h : ∀ k, i ≤ k → k < i + n → (segs k).next = if k + 1 < i + n then some (k + 1) else none) :
    linkedSegs segs n (some i) = List.range' i n := by
  induction n generalizing i with
  | zero => rfl
  | succ n ih =>
    rw [linkedSegs, List.range'_succ, h i (Nat.le_refl i) (by omega)]
    cases n with
    | zero => simp [linkedSegs]
    | succ n =>
      rw [if_pos (by omega), ih (i + 1)]
      intro k hlo hhi
      rw [h k (by omega) (by omega)]
      exact if_congr (by omega) rfl rfl

/-- The links lead through all segments, from the head on. -/
theorem SegsFilled.segs (h : SegsFilled bytes st j) :
    linkedSegs st.segs j (some 0) = List.range j := by
  rw [linkedSegs_eq, List.range_eq_range']
  intro k _ hk
  rw [h.next k (by omega)]
  exact if_congr (by omega) rfl rfl

/-! ## One round -/

theorem segsBytes_succ (segs : ℕ → TxSeg) (j : ℕ) :
    segsBytes segs (j + 1) = segsBytes segs j ++ segBytes (segs j) := by
  simp [segsBytes, List.range_succ]

/-- The bytes depend on the data and lengths only. -/
theorem segsBytes_congr {segs segs' : ℕ → TxSeg}
    (h : ∀ i < j, (segs' i).data = (segs i).data ∧ (segs' i).data_len = (segs i).data_len) :
    segsBytes segs' j = segsBytes segs j := by
  apply List.flatMap_congr
  intro i hi
  rw [segBytes, segBytes, (h i (List.mem_range.mp hi)).1, (h i (List.mem_range.mp hi)).2]

/-- Linking changes no data. -/
theorem linkSeg_data (segs : ℕ → TxSeg) (prev : Option ℕ) (cur i : ℕ) :
    (linkSeg segs prev cur i).data = (segs i).data ∧
      (linkSeg segs prev cur i).data_len = (segs i).data_len := by
  cases prev with
  | none => exact ⟨rfl, rfl⟩
  | some p =>
    by_cases hi : i = p
    · simp [linkSeg, hi]
    · simp [linkSeg, Function.update_of_ne hi]

theorem linkSeg_next (segs : ℕ → TxSeg) (p cur i : ℕ) :
    (linkSeg segs (some p) cur i).next = if i = p then some cur else (segs i).next := by
  by_cases hi : i = p
  · simp [linkSeg, hi]
  · simp [linkSeg, hi]

/-- **A round fills one more segment**, and links it behind the others. -/
theorem fillSeg_linked {new : List UInt8} {off : ℕ} (h : SegsFilled bytes st j)
    (hnext : (st.segs j).next = none) (hcopy : copy off new.length = some new)
    (hlen : new.length ≤ RTE_MBUF_DEFAULT_DATAROOM) :
    ∃ st', fillSeg copy st j (if j = 0 then none else some (j - 1)) off new.length = (st', true) ∧
      SegsFilled (bytes ++ new) st' (j + 1) ∧ st'.allocated = st.allocated ∧
      ∀ total, SendPending total st → SendPending total st' := by
  generalize hsegs : linkSeg st.segs (if j = 0 then none else some (j - 1)) j = segs
  have hsame : ∀ i, (segs i).data = (st.segs i).data ∧ (segs i).data_len = (st.segs i).data_len := by
    intro i
    rw [← hsegs]
    exact linkSeg_data st.segs _ j i
  have hlink : ∀ i < j, (segs i).next = some (i + 1) := by
    intro i hi
    rw [← hsegs, if_neg (by omega), linkSeg_next]
    by_cases hlast : i = j - 1
    · rw [if_pos hlast, hlast, Nat.sub_add_cancel (by omega)]
    · rw [if_neg hlast, h.next i hi, if_pos (by omega)]
  have hown : (segs j).next = none := by
    rw [← hsegs]
    by_cases hj : j = 0
    · rw [if_pos hj, linkSeg, hnext]
    · rw [if_neg hj, linkSeg_next, if_neg (by omega), hnext]
  let filled : ℕ → TxSeg := Function.update segs j
    { segs j with data := writeAt (segs j).data 0 new, data_len := new.length }
  have hrun : fillSeg copy st j (if j = 0 then none else some (j - 1)) off new.length =
      ({ st with segs := filled, nb_segs := (st.nb_segs + 1) % 65536 }, true) := by
    rw [fillSeg]
    simp only [hsegs, hcopy]
    rfl
  refine ⟨_, hrun, ⟨?_, ?_, ?_, ?_⟩, rfl, fun total hp => ⟨hp.pkt_len, hp.freed, hp.bsdFreed, hp.queued⟩⟩
  · intro i hi
    by_cases hij : i = j
    · subst hij
      simp [filled, hown]
    · rw [if_pos (by omega)]
      simp [filled, Function.update_of_ne hij, hlink i (by omega)]
  · intro i hi
    by_cases hij : i = j
    · subst hij
      simpa [filled] using hlen
    · have hroom := h.room i (by omega)
      rw [← (hsame i).2] at hroom
      simpa [filled, Function.update_of_ne hij] using hroom
  · have hbefore : segsBytes filled j = segsBytes st.segs j := by
      apply segsBytes_congr
      intro i hi
      have hij : i ≠ j := by omega
      simpa [filled, Function.update_of_ne hij] using hsame i
    have hnew : segBytes (filled j) = new := by
      simp only [filled, Function.update_self, segBytes]
      exact readAt_writeAt_self _ _ _
    rw [segsBytes_succ, hbefore, h.copied, hnew]
  · show (st.nb_segs + 1) % 65536 = _
    rw [h.nb_segs]
    omega

/-! ## The loop -/

/-- The packet with the bytes `src` has been copied into one chain. -/
structure CopiedAll (src : List UInt8) (st : TxSend) : Prop where
  filled : SegsFilled src st st.allocated
  count : st.allocated = (src.length + RTE_MBUF_DEFAULT_DATAROOM - 1) / RTE_MBUF_DEFAULT_DATAROOM
  pending : SendPending src.length st

/-- Everything that was allocated for a packet has been freed, once. -/
structure DroppedAll (st : TxSend) : Prop where
  freed : st.freed = List.range st.allocated
  bsdFreed : st.bsdFreed = 0
  queued : st.queued = []

/-- A new segment stands behind the others, and has no link. -/
theorem allocSeg_filled (h : SegsFilled bytes st j) (hj : st.allocated = j)
    (halloc : allocSeg alloc fresh st = some (k, st')) :
    k = j ∧ SegsFilled bytes st' j ∧ (st'.segs j).next = none ∧ st'.allocated = j + 1 ∧
      ∀ total, SendPending total st → SendPending total st' := by
  rw [allocSeg] at halloc
  split at halloc
  · cases halloc
    rw [hj]
    refine ⟨rfl, ⟨?_, ?_, ?_, h.nb_segs⟩, ?_, rfl,
      fun total hp => ⟨hp.pkt_len, hp.freed, hp.bsdFreed, hp.queued⟩⟩
    · intro i hi
      have hij : i ≠ j := by omega
      simpa [Function.update_of_ne hij] using h.next i hi
    · intro i hi
      have hij : i ≠ j := by omega
      simpa [Function.update_of_ne hij] using h.room i hi
    · rw [← h.copied]
      apply segsBytes_congr
      intro i hi
      have hij : i ≠ j := by omega
      simp [Function.update_of_ne hij]
    · simp [TxSeg.reset]
  · cases halloc

/-- The offset after one more round. -/
theorem offset_succ {len : ℕ} (hoff : n - rest = min n (k * 2048)) (hlen : len = min rest 2048)
    (hrest : rest ≤ n) : n - rest + len = min n ((k + 1) * 2048) := by
  omega

/-- A round is needed as long as something is left. -/
theorem offset_lt (hoff : n - rest = min n (k * 2048)) (hrest : rest ≤ n) (hzero : rest ≠ 0) :
    k * 2048 < n := by
  omega

/-- **The loop**, after its first round: it copies everything, or frees everything. -/
theorem copyLoop_spec {alloc : ℕ → Bool} {fresh : ℕ → Memory} {copy : ℕ → ℕ → Option (List UInt8)}
    {src : List UInt8}
    (hcopy : ∀ off len, off + len ≤ src.length → copy off len = some ((src.drop off).take len))
    (fuel : ℕ) {st : TxSend} {j : ℕ} (rest : ℕ) (hfuel : rest ≤ fuel)
    (hfilled : SegsFilled (src.take (src.length - rest)) st j) (hj : st.allocated = j) (hpos : 0 < j)
    (hoff : src.length - rest = min src.length (j * 2048))
    (hneed : (j - 1) * 2048 < src.length) (hrest : rest ≤ src.length)
    (hpending : SendPending src.length st) :
    ((copyLoop alloc fresh copy fuel st none (some (j - 1)) (src.length - rest) rest).2 = true ∧
        CopiedAll src
          (copyLoop alloc fresh copy fuel st none (some (j - 1)) (src.length - rest) rest).1) ∨
      ((copyLoop alloc fresh copy fuel st none (some (j - 1)) (src.length - rest) rest).2 = false ∧
        DroppedAll
          (copyLoop alloc fresh copy fuel st none (some (j - 1)) (src.length - rest) rest).1) := by
  have hroom : RTE_MBUF_DEFAULT_DATAROOM = 2048 := rfl
  have hdone : rest = 0 → CopiedAll src st := by
    rintro rfl
    rw [Nat.sub_zero, List.take_length, ← hj] at hfilled
    exact ⟨hfilled, by rw [hroom]; omega, hpending⟩
  induction fuel generalizing st j rest with
  | zero => exact Or.inl ⟨rfl, hdone (by omega)⟩
  | succ fuel ih =>
    rw [copyLoop]
    by_cases hzero : rest = 0
    · rw [if_pos hzero]
      exact Or.inl ⟨rfl, hdone hzero⟩
    rw [if_neg hzero]
    cases halloc : allocSeg alloc fresh st with
    | none =>
      -- the segments so far are freed along their links
      refine Or.inr ⟨rfl, ?_, hpending.bsdFreed, hpending.queued⟩
      show st.freed ++ linkedSegs st.segs st.allocated (some 0) = _
      rw [hpending.freed, hj, hfilled.segs]
      rfl
    | some r =>
      obtain ⟨k, st'⟩ := r
      obtain ⟨rfl, hfilled', hnext, hallocated, hkeep⟩ := allocSeg_filled hfilled hj halloc
      dsimp only
      generalize hlen : (if rest > RTE_MBUF_DEFAULT_DATAROOM then RTE_MBUF_DEFAULT_DATAROOM else rest) =
        len
      have hbound : len ≤ RTE_MBUF_DEFAULT_DATAROOM ∧ 0 < len ∧ len ≤ rest ∧
          len = min rest RTE_MBUF_DEFAULT_DATAROOM := by
        rw [← hlen]
        split <;> omega
      generalize hnew : (src.drop (src.length - rest)).take len = new
      have hnewlen : new.length = len := by
        rw [← hnew, List.length_take, List.length_drop]
        omega
      have hbytes := hcopy (src.length - rest) len (by omega)
      rw [hnew, ← hnewlen] at hbytes
      obtain ⟨st'', hfill, hfilled'', hsame, hkeep'⟩ :=
        fillSeg_linked hfilled' hnext hbytes (by omega)
      rw [if_neg (by omega), hnewlen] at hfill
      rw [hfill]
      have hoff' : src.length - rest + len = src.length - (rest - len) := by omega
      have htake : src.take (src.length - rest) ++ new = src.take (src.length - (rest - len)) := by
        rw [← hnew, ← hoff', List.take_add]
      rw [htake] at hfilled''
      have hrounds : src.length - (rest - len) = min src.length ((k + 1) * 2048) := by
        rw [← hoff']
        exact offset_succ hoff hbound.2.2.2 hrest
      have hneed' : (k + 1 - 1) * 2048 < src.length := offset_lt hoff hrest hzero
      have hnextround := ih (rest - len) (by omega) hfilled'' (by omega) (by omega) hrounds hneed'
        (by omega) (hkeep' _ (hkeep _ hpending))
      rw [Nat.add_sub_cancel, ← hoff'] at hnextround
      exact hnextround (by
        intro hlast
        rw [hlast, Nat.sub_zero, List.take_length] at hfilled''
        exact ⟨by rwa [hsame, hallocated], by rw [hroom]; omega, hkeep' _ (hkeep _ hpending)⟩)

/-- **The whole loop**, from its first segment on. -/
theorem copyLoop_start {alloc : ℕ → Bool} {fresh : ℕ → Memory} {copy : ℕ → ℕ → Option (List UInt8)}
    {src : List UInt8}
    (hcopy : ∀ off len, off + len ≤ src.length → copy off len = some ((src.drop off).take len))
    (hsrc : 1 ≤ src.length) {st : TxSend} (halloc : st.allocated = 1) (hnext : (st.segs 0).next = none)
    (hnb : st.nb_segs = 0) (hpending : SendPending src.length st) :
    ((copyLoop alloc fresh copy src.length st (some 0) none 0 src.length).2 = true ∧
        CopiedAll src (copyLoop alloc fresh copy src.length st (some 0) none 0 src.length).1) ∨
      ((copyLoop alloc fresh copy src.length st (some 0) none 0 src.length).2 = false ∧
        DroppedAll (copyLoop alloc fresh copy src.length st (some 0) none 0 src.length).1) := by
  have hroom : RTE_MBUF_DEFAULT_DATAROOM = 2048 := rfl
  have hfilled : SegsFilled [] st 0 :=
    ⟨fun i hi => absurd hi (Nat.not_lt_zero i), fun i hi => absurd hi (Nat.not_lt_zero i), rfl, hnb⟩
  obtain ⟨fuel, hfuel⟩ := Nat.exists_eq_add_of_le' hsrc
  have hloop : copyLoop alloc fresh copy src.length st (some 0) none 0 src.length =
      copyLoop alloc fresh copy (fuel + 1) st (some 0) none 0 src.length := by rw [hfuel]
  rw [hloop, copyLoop, if_neg (by omega)]
  dsimp only
  generalize hlen : (if src.length > RTE_MBUF_DEFAULT_DATAROOM then RTE_MBUF_DEFAULT_DATAROOM
    else src.length) = len
  have hmin : len = min src.length 2048 := by
    rw [← hlen, hroom]
    split <;> omega
  have hnewlen : (src.take len).length = len := List.length_take_of_le (by omega)
  have hbytes : copy 0 (src.take len).length = some (src.take len) := by
    rw [hnewlen, hcopy 0 len (by omega), List.drop_zero]
  obtain ⟨st', hfill, hfilled', hsame, hkeep⟩ := fillSeg_linked hfilled hnext hbytes (by omega)
  rw [if_pos rfl, hnewlen] at hfill
  rw [hfill]
  have hrest : src.length - (src.length - len) = len := by omega
  rw [List.nil_append] at hfilled'
  have hspec := @copyLoop_spec alloc fresh copy src hcopy fuel st' 1
    (src.length - len) (by omega) (by rwa [hrest]) (by rw [hsame, halloc]) (by omega) (by omega)
    (by omega) (by omega) (hkeep _ hpending)
  rw [hrest] at hspec
  rw [Nat.zero_add]
  exact hspec

/-! ## The offload code -/

@[simp] theorem offloadTcpCsum_data (offload : FfTxOffload) (iph_len : ℕ) (head : HeadMbuf) :
    (offloadTcpCsum offload iph_len head).data = head.data := by
  rw [offloadTcpCsum]
  split <;> rfl

@[simp] theorem offloadUdpCsum_data (offload : FfTxOffload) (iph_len : ℕ) (head : HeadMbuf) :
    (offloadUdpCsum offload iph_len head).data = head.data := by
  rw [offloadUdpCsum]
  split <;> rfl

@[simp] theorem offloadVersion_data (head : HeadMbuf) : (offloadVersion head).data = head.data := by
  rw [offloadVersion]
  split <;> rfl

/-- Where the checksum of the TCP header stands. -/
def tcpCksumField (data : Memory) : ℕ := RTE_ETHER_HDR_LEN + offloadIphLen data + 16

/-- **The offload code writes the TCP checksum only**, and only for segmentation. -/
theorem sendOffload_data {tx_csum_l4 : Bool} {m : TxPktHdr} {head : HeadMbuf} {i : ℕ}
    (h : (sendOffload tx_csum_l4 m head).data i ≠ head.data i) :
    tx_csum_l4 = true ∧ (ffMbufTxOffload m).tso_seg_size ≠ 0 ∧
      (i = tcpCksumField head.data ∨ i = tcpCksumField head.data + 1) := by
  cases tx_csum_l4 with
  | false => simp [sendOffload] at h
  | true =>
    simp only [sendOffload, if_true, offloadUdpCsum_data] at h
    rw [offloadTso] at h
    split at h
    · rename_i htso
      refine ⟨rfl, htso, ?_⟩
      by_contra hi
      rw [not_or] at hi
      apply h
      simp only [setTcpCksum, offloadTcpCsum_data, offloadVersion_data, offloadIpCsum_data]
      rw [tcpCksumField] at hi
      rw [Function.update_of_ne (by omega), Function.update_of_ne (by omega)]
    · simp at h

/-- A packet is to be segmented by the NIC. -/
def Segmented (tx_csum_l4 : Bool) (m : BsdPacket) : Prop :=
  tx_csum_l4 = true ∧ (ffMbufTxOffload m.hdr).tso_seg_size ≠ 0

/-- The bytes of a packet with the checksum field of its TCP header left open, where the offload code
fills it for IPv4.  For a segmented packet of another version only their number is stated. -/
def SameButTcpCksum (tx_csum_l4 : Bool) (m : BsdPacket) (bytes : List UInt8) : Prop :=
  bytes.length = m.data.length ∧
    ((Segmented tx_csum_l4 m → ∀ b ∈ m.data[RTE_ETHER_HDR_LEN]?, b.toNat / 16 = 4) →
      ∀ i : ℕ, bytes[i]? ≠ m.data[i]? → Segmented tx_csum_l4 m ∧
        ∃ b ∈ m.data[RTE_ETHER_HDR_LEN]?, b.toNat / 16 = 4 ∧
          (i = RTE_ETHER_HDR_LEN + b.toNat % 16 * 4 + 16 ∨
            i = RTE_ETHER_HDR_LEN + b.toNat % 16 * 4 + 17))

/-- The bytes of the first segment come first. -/
theorem segsBytes_head (segs : ℕ → TxSeg) (j : ℕ) :
    segsBytes segs (j + 1) =
      segBytes (segs 0) ++ (List.range' 1 j).flatMap fun i => segBytes (segs i) := by
  rw [segsBytes, List.range_eq_range', List.range'_succ, List.flatMap_cons]

/-- After the offload code the segments are linked as before, and their bytes are those of the
packet but for the TCP checksum. -/
theorem offloadHead_filled {tx_csum_l4 : Bool} {m : BsdPacket} {st : TxSend} {j : ℕ}
    (h : SegsFilled m.data st (j + 1)) :
    SegsFilled (segsBytes (offloadHead tx_csum_l4 m.hdr st 0).segs (j + 1))
        (offloadHead tx_csum_l4 m.hdr st 0) (j + 1) ∧
      SameButTcpCksum tx_csum_l4 m
        (segsBytes (offloadHead tx_csum_l4 m.hdr st 0).segs (j + 1)) := by
  generalize hst' : offloadHead tx_csum_l4 m.hdr st 0 = st'
  have hhead : st'.segs 0 = { st.segs 0 with
      toHeadMbuf := sendOffload tx_csum_l4 m.hdr (st.segs 0).toHeadMbuf } := by
    rw [← hst']
    simp [offloadHead]
  have hothers : ∀ i, i ≠ 0 → st'.segs i = st.segs i := by
    intro i hi
    rw [← hst']
    simp [offloadHead, hi]
  have hlink : ∀ i, (st'.segs i).next = (st.segs i).next ∧
      (st'.segs i).data_len = (st.segs i).data_len := by
    intro i
    by_cases hi : i = 0
    · rw [hi, hhead]
      exact ⟨rfl, rfl⟩
    · rw [hothers i hi]
      exact ⟨rfl, rfl⟩
  have hrest : ((List.range' 1 j).flatMap fun i => segBytes (st'.segs i)) =
      (List.range' 1 j).flatMap fun i => segBytes (st.segs i) := by
    apply List.flatMap_congr
    intro i hi
    rw [hothers i (by have := (List.mem_range'_1.mp hi).1; omega)]
  have hsplit := h.copied
  rw [segsBytes_head] at hsplit
  refine ⟨⟨?_, ?_, rfl, ?_⟩, ?_, ?_⟩
  · intro i hi
    rw [(hlink i).1, h.next i hi]
  · intro i hi
    rw [(hlink i).2]
    exact h.room i hi
  · rw [← hst']
    exact h.nb_segs
  · rw [segsBytes_head, hrest, ← hsplit, List.length_append, List.length_append, segBytes, segBytes,
      length_readAt, length_readAt, (hlink 0).2]
  · intro hversion i hdiff
    -- the difference is in the first segment, so it is in its data
    have hlen : (segBytes (st'.segs 0)).length = (segBytes (st.segs 0)).length := by
      rw [segBytes, segBytes, length_readAt, length_readAt, (hlink 0).2]
    rw [segsBytes_head, hrest, ← hsplit] at hdiff
    have hin : i < (segBytes (st.segs 0)).length := by
      by_contra hout
      apply hdiff
      rw [List.getElem?_append_right (by omega), List.getElem?_append_right (by omega), hlen]
    rw [List.getElem?_append_left (by omega), List.getElem?_append_left hin] at hdiff
    have hbyte : ∀ k, k < (segBytes (st.segs 0)).length →
        (segBytes (st.segs 0))[k]? = some ((st.segs 0).data k) := by
      intro k hk
      rw [segBytes, length_readAt] at hk
      simp [segBytes, readAt, hk]
    have hbyte' : (segBytes (st'.segs 0))[i]? = some ((st'.segs 0).data i) := by
      rw [segBytes, length_readAt] at hin
      simp [segBytes, readAt, (hlink 0).2, hin]
    rw [hbyte i hin, hbyte', hhead] at hdiff
    have hwritten := @sendOffload_data tx_csum_l4 m.hdr (st.segs 0).toHeadMbuf i
      fun heq => hdiff (congrArg some heq)
    obtain ⟨hl4, htso, hplace⟩ := hwritten
    have hfield : RTE_ETHER_HDR_LEN < (segBytes (st.segs 0)).length := by
      rw [tcpCksumField] at hplace
      omega
    have hb : m.data[RTE_ETHER_HDR_LEN]? = some ((st.segs 0).data RTE_ETHER_HDR_LEN) := by
      rw [← hsplit, List.getElem?_append_left hfield, hbyte _ hfield]
    exact ⟨⟨hl4, htso⟩, _, hb, hversion ⟨hl4, htso⟩ _ hb, hplace⟩

/-! ## The two senders -/

/-- A packet of `total` bytes is queued as one chain with the bytes `bytes`. -/
structure QueuedChain (total : ℕ) (bytes : List UInt8) (st : TxSend) : Prop where
  queued : st.queued = [0]
  links : linkedSegs st.segs st.allocated (some 0) = List.range st.allocated
  count : st.allocated = (total + RTE_MBUF_DEFAULT_DATAROOM - 1) / RTE_MBUF_DEFAULT_DATAROOM
  bytes : ((linkedSegs st.segs st.allocated (some 0)).flatMap fun i => segBytes (st.segs i)) = bytes
  room : ∀ i ∈ linkedSegs st.segs st.allocated (some 0),
    (st.segs i).data_len ≤ RTE_MBUF_DEFAULT_DATAROOM
  pkt_len : st.pkt_len = total
  /-- a field of 16 bits -/
  nb_segs : st.nb_segs = st.allocated % 65536
  freed : st.freed = []

/-- A packet is not queued, and every segment that was allocated for it is freed once. -/
structure NotQueued (st : TxSend) : Prop where
  queued : st.queued = []
  freed : st.freed = List.range st.allocated

/-- A chain that has been copied, when it is queued. -/
theorem SegsFilled.queuedChain (h : SegsFilled bytes st st.allocated) (hqueued : st.queued = [0])
    (hpkt : st.pkt_len = total)
    (hcount : st.allocated = (total + RTE_MBUF_DEFAULT_DATAROOM - 1) / RTE_MBUF_DEFAULT_DATAROOM)
    (hfreed : st.freed = []) : QueuedChain total bytes st := by
  refine ⟨hqueued, h.segs, hcount, ?_, ?_, hpkt, h.nb_segs, hfreed⟩
  · rw [h.segs]
    exact h.copied
  · intro i hi
    rw [h.segs] at hi
    exact h.room i (List.mem_range.mp hi)

/-- The first segment of a packet. -/
theorem allocSeg_start (alloc : ℕ → Bool) (fresh : ℕ → Memory) :
    allocSeg alloc fresh TxSend.start = none ∨
      ∃ st, allocSeg alloc fresh TxSend.start = some (0, st) ∧ st.allocated = 1 ∧
        (st.segs 0).next = none ∧ st.freed = [] ∧ st.bsdFreed = 0 ∧ st.queued = [] := by
  rw [allocSeg]
  split
  · exact Or.inr ⟨_, rfl, rfl, by simp [TxSend.start, TxSeg.reset], rfl, rfl, rfl⟩
  · exact Or.inl rfl

/-- What a call of `ff_dpdk_if_send` does with a packet. -/
def IfSendLaw (ctx : Option Bool) (m : BsdPacket) (r : TxSend × ℤ) : Prop :=
  (r.2 = 0 ∧ r.1.bsdFreed = 1 ∧ ∃ tx_csum_l4 bytes, ctx = some tx_csum_l4 ∧
      QueuedChain m.data.length bytes r.1 ∧ SameButTcpCksum tx_csum_l4 m bytes) ∨
    (r.2 = -1 ∧ r.1.bsdFreed = 1 ∧ NotQueued r.1)

/-- What a call of `ff_dpdk_raw_packet_send` does with a buffer. -/
def RawSendLaw (data : List UInt8) (r : TxSend × ℤ) : Prop :=
  (r.2 = 0 ∧ r.1.bsdFreed = 0 ∧ QueuedChain data.length data r.1) ∨
    (r.2 = -1 ∧ r.1.bsdFreed = 0 ∧ NotQueued r.1)

theorem ifSend_law (alloc : ℕ → Bool) (fresh : ℕ → Memory) (ctx : Option Bool) {m : BsdPacket}
    (htotal : 1 ≤ m.data.length) :
    IfSendLaw ctx m (ffDpdkIfSendCopy alloc fresh ctx m m.data.length) := by
  cases ctx with
  | none => exact Or.inr ⟨rfl, rfl, rfl, rfl⟩
  | some tx_csum_l4 =>
    rw [ffDpdkIfSendCopy]
    rcases allocSeg_start alloc fresh with hnone | ⟨st, hsome, halloc, hnext, hfreed, hbsd, hqueued⟩
    · rw [hnone]
      exact Or.inr ⟨rfl, rfl, rfl, rfl⟩
    · rw [hsome]
      dsimp only
      generalize hst' : ({ st with pkt_len := m.data.length, nb_segs := 0 } : TxSend) = st'
      have hcopy : ∀ off len, off + len ≤ m.data.length →
          ffMbufCopydata m off len = some ((m.data.drop off).take len) := by
        intro off len hle
        rw [ffMbufCopydata, if_neg (by omega)]
      have hloop := @copyLoop_start alloc fresh _ _ hcopy htotal st'
        (by rw [← hst']; exact halloc) (by rw [← hst']; exact hnext) (by rw [← hst'])
        (by rw [← hst']; exact ⟨rfl, hfreed, hbsd, hqueued⟩)
      generalize copyLoop alloc fresh (ffMbufCopydata m) m.data.length st' (some 0) none 0
        m.data.length = r at hloop
      obtain ⟨st'', done⟩ := r
      rcases hloop with ⟨hdone, hall⟩ | ⟨hdone, hall⟩
      · subst hdone
        obtain ⟨hfilled, hcount, hpending⟩ := hall
        have hpos : 0 < st''.allocated := by
          rw [hcount, show RTE_MBUF_DEFAULT_DATAROOM = 2048 from rfl]
          omega
        obtain ⟨j, hj⟩ := Nat.exists_eq_add_of_lt hpos
        rw [Nat.zero_add] at hj
        rw [hj] at hfilled
        obtain ⟨hoff, hbytes⟩ := @offloadHead_filled tx_csum_l4 m st'' j hfilled
        refine Or.inl ⟨rfl, ?_, tx_csum_l4, _, rfl, ?_, hbytes⟩
        · show st''.bsdFreed + 1 = 1
          rw [hpending.bsdFreed]
        · have hchain : SegsFilled
              (segsBytes (offloadHead tx_csum_l4 m.hdr st'' 0).segs (j + 1))
              (queuePacket (freeBsdPacket (offloadHead tx_csum_l4 m.hdr st'' 0)) 0)
              (queuePacket (freeBsdPacket (offloadHead tx_csum_l4 m.hdr st'' 0)) 0).allocated := by
            show SegsFilled _ _ st''.allocated
            rw [hj]
            exact ⟨hoff.next, hoff.room, hoff.copied, hoff.nb_segs⟩
          apply hchain.queuedChain
          · show st''.queued ++ [0] = [0]
            rw [hpending.queued]
            rfl
          · exact hpending.pkt_len
          · exact hcount
          · exact hpending.freed
      · subst hdone
        refine Or.inr ⟨rfl, ?_, hall.queued, hall.freed⟩
        show st''.bsdFreed + 1 = 1
        rw [hall.bsdFreed]

theorem rawSend_law (alloc : ℕ → Bool) (fresh : ℕ → Memory) {data : List UInt8}
    (htotal : 1 ≤ data.length) :
    RawSendLaw data (ffDpdkRawPacketSendCopy alloc fresh data data.length) := by
  rw [ffDpdkRawPacketSendCopy]
  rcases allocSeg_start alloc fresh with hnone | ⟨st, hsome, halloc, hnext, hfreed, hbsd, hqueued⟩
  · rw [hnone]
    exact Or.inr ⟨rfl, rfl, rfl, rfl⟩
  · rw [hsome]
    dsimp only
    generalize hst' : ({ st with pkt_len := data.length, nb_segs := 0 } : TxSend) = st'
    have hloop := @copyLoop_start alloc fresh (fun off len => some ((data.drop off).take len)) data
      (fun _ _ _ => rfl) htotal st'
      (by rw [← hst']; exact halloc) (by rw [← hst']; exact hnext) (by rw [← hst'])
      (by rw [← hst']; exact ⟨rfl, hfreed, hbsd, hqueued⟩)
    generalize copyLoop alloc fresh (fun off len => some ((data.drop off).take len)) data.length st'
      (some 0) none 0 data.length = r at hloop
    obtain ⟨st'', done⟩ := r
    rcases hloop with ⟨hdone, hall⟩ | ⟨hdone, hall⟩
    · subst hdone
      obtain ⟨hfilled, hcount, hpending⟩ := hall
      have hchain : SegsFilled data (queuePacket st'' 0) (queuePacket st'' 0).allocated :=
        ⟨hfilled.next, hfilled.room, hfilled.copied, hfilled.nb_segs⟩
      refine Or.inl ⟨rfl, hpending.bsdFreed, ?_⟩
      apply hchain.queuedChain
      · show st''.queued ++ [0] = [0]
        rw [hpending.queued]
        rfl
      · exact hpending.pkt_len
      · exact hcount
      · exact hpending.freed
    · subst hdone
      exact Or.inr ⟨rfl, hall.bsdFreed, hall.queued, hall.freed⟩

/-- **Packets and buffers are sent whole, or dropped**, whatever allocations fail. -/
theorem copied_packets (alloc : ℕ → Bool) (fresh : ℕ → Memory) (ctx : Option Bool) (m : BsdPacket)
    (data : List UInt8) (hm : 1 ≤ m.data.length) (hdata : 1 ≤ data.length) :
    IfSendLaw ctx m (ffDpdkIfSendCopy alloc fresh ctx m m.data.length) ∧
      RawSendLaw data (ffDpdkRawPacketSendCopy alloc fresh data data.length) :=
  ⟨ifSend_law alloc fresh ctx hm, rawSend_law alloc fresh hdata⟩

/-- The second segment of a buffer of 2049 bytes cannot be allocated; a packet of one byte is sent. -/
theorem copied_packets_secondSegment :
    IfSendLaw (some false) ⟨[7], ⟨0, 0⟩⟩
        (ffDpdkIfSendCopy (fun k => k == 0) (fun _ _ => 0) (some false) ⟨[7], ⟨0, 0⟩⟩ 1) ∧
      RawSendLaw (List.replicate 2049 7) (ffDpdkRawPacketSendCopy (fun k => k == 0) (fun _ _ => 0)
        (List.replicate 2049 7) (List.replicate 2049 (7 : UInt8)).length) :=
  copied_packets (fun k => k == 0) (fun _ _ => 0) (some false) ⟨[7], ⟨0, 0⟩⟩
    (List.replicate 2049 7) (by decide) (by rw [List.length_replicate]; decide)

/-! ## The count of segments alone

The run of a process with its transmission queues keeps of a raw packet only the number of its
segments (`ffDpdkRawPacketSend`): it is the number that the copying code ends with.
-/

/-- A round whose bytes can be copied counts its segment. -/
theorem fillSeg_counts (hcopy : ∀ off len, (copy off len).isSome) (st : TxSend) (cur : ℕ)
    (prev : Option ℕ) (off len : ℕ) :
    ∃ st', fillSeg copy st cur prev off len = (st', true) ∧ st'.allocated = st.allocated ∧
      st'.nb_segs = (st.nb_segs + 1) % 65536 := by
  obtain ⟨bytes, hbytes⟩ := Option.isSome_iff_exists.mp (hcopy off len)
  rw [fillSeg, hbytes]
  exact ⟨_, rfl, rfl, rfl⟩

/-- The loop goes through when the count does, and then it has counted so many segments. -/
theorem copyLoop_counts (fresh : ℕ → Memory) (hcopy : ∀ off len, (copy off len).isSome) (fuel : ℕ)
    (st : TxSend) (prev : Option ℕ) (off total : ℕ) (hsegs : st.nb_segs < 65536) :
    (copyLoop alloc fresh copy fuel st none prev off total).2 =
        (rawSegments alloc fuel st.allocated total).isSome ∧
      ∀ n, rawSegments alloc fuel st.allocated total = some n →
        (copyLoop alloc fresh copy fuel st none prev off total).1.nb_segs =
          (st.nb_segs + n) % 65536 := by
  induction fuel generalizing st prev off total with
  | zero =>
    refine ⟨rfl, fun n hn => ?_⟩
    cases hn
    exact (Nat.mod_eq_of_lt hsegs).symm
  | succ fuel ih =>
    rw [copyLoop, rawSegments]
    by_cases hzero : total = 0
    · rw [if_pos hzero, if_pos hzero]
      refine ⟨rfl, fun n hn => ?_⟩
      cases hn
      exact (Nat.mod_eq_of_lt hsegs).symm
    rw [if_neg hzero, if_neg hzero, allocSeg]
    cases halloc : alloc st.allocated with
    | false => exact ⟨rfl, fun n hn => by cases hn⟩
    | true =>
      have hlen : (if total > RTE_MBUF_DEFAULT_DATAROOM then RTE_MBUF_DEFAULT_DATAROOM else total) =
          min total RTE_MBUF_DEFAULT_DATAROOM := by
        split <;> omega
      dsimp only
      rw [hlen]
      obtain ⟨st', hfill, hallocated, hcount⟩ := fillSeg_counts hcopy
        { st with
          segs := Function.update st.segs st.allocated (TxSeg.reset (fresh st.allocated))
          allocated := st.allocated + 1 }
        st.allocated prev off (min total RTE_MBUF_DEFAULT_DATAROOM)
      dsimp only at hallocated hcount
      obtain ⟨hdone, hsum⟩ := ih st' (some st.allocated)
        (off + min total RTE_MBUF_DEFAULT_DATAROOM) (total - min total RTE_MBUF_DEFAULT_DATAROOM)
        (by omega)
      rw [hallocated] at hdone hsum
      simp only [if_true, hfill, Bool.true_eq_false, if_false]
      refine ⟨by rw [hdone, Option.isSome_map], fun n hn => ?_⟩
      obtain ⟨k, hk, rfl⟩ := Option.map_eq_some_iff.mp hn
      rw [hsum k hk, hcount]
      omega

/-- The segment allocated before the loop is the one that its first round would allocate. -/
theorem copyLoop_acquired (halloc : allocSeg alloc fresh st = some (k, st')) (fuel : ℕ) (prev : Option ℕ)
    (off : ℕ) (hzero : total ≠ 0) :
    copyLoop alloc fresh copy (fuel + 1) st' (some k) prev off total =
      copyLoop alloc fresh copy (fuel + 1) st none prev off total := by
  rw [copyLoop, copyLoop, if_neg hzero, if_neg hzero, halloc]

/-- What is queued, once the loop and the count agree. -/
theorem queued_of_counts (st : TxState) (port : PortId) (accepted : ℕ) (segs : Option ℕ)
    (r : TxSend × Bool) :
    r.2 = segs.isSome → (∀ n, segs = some n → r.1.nb_segs = n % 65536) →
      (match segs with
        | none => st
        | some n => sendSinglePacket st (n % 65536) port accepted) =
        let sent : TxSend × ℤ :=
          match r with
          | (st, false) => (st, -1)
          | (st, true) => (queuePacket st 0, 0)
        if sent.2 = 0 then sendSinglePacket st sent.1.nb_segs port accepted else st := by
  obtain ⟨st', done⟩ := r
  intro hdone hsum
  cases segs with
  | none =>
    subst hdone
    rfl
  | some n =>
    subst hdone
    show sendSinglePacket st (n % 65536) port accepted = _
    rw [← hsum n rfl]
    rfl

/-- **Both models of a raw packet agree**: the copying code queues it in the same cases, and with the
number of segments that the run of the process counts. -/
theorem rawPacketSend_copies (st : TxState) (port : PortId) (alloc : ℕ → Bool) (accepted : ℕ)
    (fresh : ℕ → Memory) (data : List UInt8) (total : ℕ) :
    ffDpdkRawPacketSend st total port alloc accepted =
      let r := ffDpdkRawPacketSendCopy alloc fresh data total
      if r.2 = 0 then sendSinglePacket st r.1.nb_segs port accepted else st := by
  rw [ffDpdkRawPacketSend, ffDpdkRawPacketSendCopy, allocSeg]
  cases halloc : alloc 0 with
  | false => simp [TxSend.start, halloc]
  | true =>
    rw [if_neg Bool.false_ne_true.symm, if_pos (show alloc TxSend.start.allocated = true from halloc)]
    cases total with
    | zero => simp [TxSend.start, rawSegments, copyLoop, queuePacket]
    | succ total =>
      let start : TxSend := { TxSend.start with pkt_len := total + 1 }
      have hstart : allocSeg alloc fresh start = some (0, { start with
          segs := Function.update start.segs 0 (TxSeg.reset (fresh 0)), allocated := 1 }) :=
        if_pos halloc
      obtain ⟨hdone, hsum⟩ := @copyLoop_counts (fun off len => some ((data.drop off).take len)) alloc fresh
        (fun _ _ => rfl) (total + 1) start none 0 (total + 1) (show 0 < 65536 by decide)
      rw [← copyLoop_acquired hstart total none 0 (Nat.succ_ne_zero total)] at hdone hsum
      have hcount : start.nb_segs = 0 := rfl
      simp only [hcount, Nat.zero_add] at hsum
      exact queued_of_counts st port accepted _ _ hdone hsum

/-- A TCP packet of IPv4, to be segmented by the NIC. -/
def segmentedPacket : BsdPacket :=
  ⟨(List.replicate 54 0).mapIdx fun i _ => if i = 14 then 0x45 else if i = 23 then 6 else 0,
    ⟨CSUM_TSO, 1000⟩⟩

/-- For a packet with segmentation the bytes that are queued are not those of the packet. -/
theorem not_copied_exactly :
    ¬ ∀ (alloc : ℕ → Bool) (fresh : ℕ → Memory) (tx_csum_l4 : Bool) (m : BsdPacket),
      1 ≤ m.data.length →
        let r := ffDpdkIfSendCopy alloc fresh (some tx_csum_l4) m m.data.length
        (r.2 = 0 ∧ r.1.bsdFreed = 1 ∧ QueuedChain m.data.length m.data r.1) ∨
          (r.2 = -1 ∧ r.1.bsdFreed = 1 ∧ NotQueued r.1) := by
  intro h
  rcases h (fun _ => true) (fun _ _ => 0) true segmentedPacket (by decide) with hsent | hdropped
  · exact absurd hsent.2.2.bytes (by decide)
  · exact absurd hdropped.1 (by decide)

end FStack.Analysis
