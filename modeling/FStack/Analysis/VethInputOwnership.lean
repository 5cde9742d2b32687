import FStack.Model.VethInput
import Mathlib.Data.List.Nodup
import Mathlib.Data.List.Count

/-!
# Who frees a received segment

A packet dropped before its first segment is wrapped is freed segment by segment
through the `next` pointers, once each.  When a later `ff_mbuf_get` fails, both halves
are freed by the wrong means: `ff_mbuf_free` gives back the segments that were wrapped
and clears their `next` pointers, so the `rte_pktmbuf_free` that follows gives the first
segment back a second time and finds no way to the segments that were not wrapped.

`ffVethInput_releases_iff` is the exact statement.  Its last condition is about the
packet header: `ff_mbuf_gethdr` receives the packet length in 16 bits.
-/

set_option autoImplicit false

namespace FStack.Analysis

open FStack.Model

/-- What `ff_veth_input` owes the caller: the stack receives a chain that wraps the
segments one to one in order, with the right total length, and nothing was given back; or
the stack receives nothing and each segment was given back exactly once. -/
def ReleasesEachOnce (p : RxPacket) (r : VethResult) : Prop :=
  (∃ hdr chain, r.input = some (hdr, chain) ∧
    chain = p.segs.map (fun s => ⟨s.id, s.data_len⟩) ∧
    hdr.len = (chain.map BsdMbuf.m_len).sum ∧ r.heap.returned = []) ∨
  (r.input = none ∧ (∀ s ∈ p.segs, r.heap.returned.count s.id = 1) ∧
    ∀ m ∈ r.heap.returned, m ∈ p.segs.map RteSeg.id)

/-- The packet is dropped before anything is wrapped, or everything is wrapped and the
packet's length fits in 16 bits. -/
def WrapsAllOrNothing (rx_csum : Bool) (alloc : ℕ → Bool) (p : RxPacket) : Prop :=
  (rx_csum = true ∧ p.csum_bad = true) ∨ alloc 0 = false ∨
    ((∀ k ≤ p.rest.length, alloc k = true) ∧ p.pkt_len < 65536)

/-- Freeing a chain through its `next` pointers gives back its segments in order.
SOURCE: dpdk/lib/mbuf/rte_mbuf.h:1415-1427 -/
theorem rtePktmbufFree_chain (l : List ℕ) (a : ℕ) (h : MbufHeap) (hnd : (a :: l).Nodup)
    (hnext : ∀ m ∈ a :: l, h.next m = linkChain (a :: l) m) :
    (rtePktmbufFree (a :: l).length h (some a)).returned = h.returned ++ (a :: l) := by
  induction l generalizing a h with
  | nil =>
    simp [rtePktmbufFree, rtePktmbufFreeSeg]
  | cons b l ih =>
    have hab : a ∉ b :: l := (List.nodup_cons.mp hnd).1
    have hstep : h.next a = some b := by
      rw [hnext a (by simp)]
      simp [linkChain]
    have hnext' : ∀ m ∈ b :: l, (rtePktmbufFreeSeg h a).next m = linkChain (b :: l) m := by
      intro m hm
      have hma : m ≠ a := fun heq => hab (heq ▸ hm)
      have := hnext m (List.mem_cons_of_mem a hm)
      simpa [rtePktmbufFreeSeg, hma, linkChain] using this
    have := ih b (rtePktmbufFreeSeg h a) (List.nodup_cons.mp hnd).2 hnext'
    rw [List.length_cons, rtePktmbufFree, hstep, this]
    simp [rtePktmbufFreeSeg]

theorem ffMbufFree_returned (chain : List BsdMbuf) (h : MbufHeap) :
    (ffMbufFree h chain).returned = h.returned ++ chain.map BsdMbuf.ext_arg1 := by
  induction chain generalizing h with
  | nil => simp [ffMbufFree]
  | cons b chain ih =>
    have := ih (rtePktmbufFreeSeg h b.ext_arg1)
    simp only [ffMbufFree, List.foldl_cons] at this ⊢
    rw [this]
    simp [rtePktmbufFreeSeg]

/-- The `next` pointer of a segment freed with its BSD mbuf is gone.
SOURCE: dpdk/lib/mbuf/rte_mbuf.h:1361-1362 -/
theorem ffMbufFree_next (chain : List BsdMbuf) (h : MbufHeap) (m : ℕ)
    (hm : m ∈ chain.map BsdMbuf.ext_arg1 ∨ h.next m = none) : (ffMbufFree h chain).next m = none := by
  induction chain generalizing h with
  | nil => simpa [ffMbufFree] using hm
  | cons b chain ih =>
    simp only [ffMbufFree, List.foldl_cons]
    apply ih
    by_cases hb : m = b.ext_arg1
    · right
      simp [rtePktmbufFreeSeg, hb]
    · rcases hm with hm | hm
      · left
        simpa [hb] using hm
      · right
        simp [rtePktmbufFreeSeg, hb, hm]

/-- The loop wraps everything when every allocation succeeds. -/
theorem ffVethInputLoop_all (alloc : ℕ → Bool) (p : RxPacket) (h : MbufHeap) (hdr : PktHdr)
    (k : ℕ) (chain : List BsdMbuf) (rest : List RteSeg)
    (hall : ∀ i < rest.length, alloc (k + i) = true) :
    ffVethInputLoop alloc p h hdr k chain rest =
      ⟨h, some (hdr, chain ++ rest.map (fun s => ⟨s.id, s.data_len⟩))⟩ := by
  induction rest generalizing k chain with
  | nil => simp [ffVethInputLoop]
  | cons s rest ih =>
    have h0 : alloc k = true := by simpa using hall 0 (by simp)
    have hrest : ∀ i < rest.length, alloc (k + 1 + i) = true := by
      intro i hi
      have := hall (i + 1) (by simpa using hi)
      rwa [show k + (i + 1) = k + 1 + i by omega] at this
    rw [ffVethInputLoop, if_pos h0, ih (k + 1) _ hrest]
    simp

/-- The loop drops the packet at the first allocation that fails, with at least the
first segment wrapped. -/
theorem ffVethInputLoop_fail (alloc : ℕ → Bool) (p : RxPacket) (h : MbufHeap) (hdr : PktHdr)
    (k : ℕ) (chain : List BsdMbuf) (rest : List RteSeg) (i : ℕ) (hi : i < rest.length)
    (hfail : alloc (k + i) = false) :
    ∃ wrapped : List BsdMbuf,
      ffVethInputLoop alloc p h hdr k chain rest =
        ⟨rtePktmbufFree p.segs.length (ffMbufFree h (chain ++ wrapped)) (some p.head.id), none⟩ := by
  induction rest generalizing k chain i with
  | nil => simp at hi
  | cons s rest ih =>
    by_cases h0 : alloc k = true
    · obtain ⟨j, rfl⟩ : ∃ j, i = j + 1 := by
        cases i with
        | zero => simp [h0] at hfail
        | succ j => exact ⟨j, rfl⟩
      obtain ⟨wrapped, hw⟩ := ih (k + 1) (chain ++ [⟨s.id, s.data_len⟩]) j (by simpa using hi)
        (by rwa [show k + 1 + j = k + (j + 1) by omega])
      refine ⟨⟨s.id, s.data_len⟩ :: wrapped, ?_⟩
      rw [ffVethInputLoop, if_pos h0, hw]
      simp
    · refine ⟨[], ?_⟩
      rw [ffVethInputLoop, if_neg h0]
      simp

/-- Once the first segment was given back with its BSD mbuf, freeing the packet
gives it back again, and nothing else.
SOURCE: lib/ff_dpdk_if.c:1595-1598 -/
theorem rtePktmbufFree_after_ffMbufFree (p : RxPacket) (h : MbufHeap) (wrapped : List BsdMbuf) :
    (rtePktmbufFree p.segs.length
        (ffMbufFree h (⟨p.head.id, p.head.data_len⟩ :: wrapped)) (some p.head.id)).returned =
      h.returned ++ p.head.id :: wrapped.map BsdMbuf.ext_arg1 ++ [p.head.id] := by
  have hnext : (ffMbufFree h (⟨p.head.id, p.head.data_len⟩ :: wrapped)).next p.head.id = none :=
    ffMbufFree_next _ h _ (.inl (by simp))
  have hlen : p.segs.length = p.rest.length + 1 := by simp [RxPacket.segs]
  rw [hlen, rtePktmbufFree, hnext]
  have hstop : ∀ (n : ℕ) (g : MbufHeap), rtePktmbufFree n g none = g := by
    intro n g
    cases n <;> rfl
  rw [hstop]
  simp [rtePktmbufFreeSeg, ffMbufFree_returned]

/-- A packet that is dropped before it is wrapped is given back once. -/
theorem releases_of_early_drop (p : RxPacket) :
    ReleasesEachOnce p ⟨rtePktmbufFree p.segs.length ⟨linkChain (p.segs.map RteSeg.id), []⟩
      (some p.head.id), none⟩ := by
  have hret := rtePktmbufFree_chain (p.rest.map RteSeg.id) p.head.id
    ⟨linkChain (p.segs.map RteSeg.id), []⟩ (by simpa using p.nodup) (fun m _ => rfl)
  simp only [List.nil_append, List.length_cons, List.length_map] at hret
  have hlen : p.segs.length = p.rest.length + 1 := by simp [RxPacket.segs]
  right
  refine ⟨rfl, ?_, ?_⟩
  · intro s hs
    simp only [hlen, hret]
    apply List.count_eq_one_of_mem (by simpa using p.nodup)
    have := List.mem_map_of_mem (f := RteSeg.id) hs
    simpa [RxPacket.segs] using this
  · intro m hm
    simp only [hlen, hret] at hm
    simpa only [RxPacket.segs, List.map_cons] using hm

/-- A packet that is wrapped whole is passed on with the right length exactly if its length
fits in 16 bits.
SOURCE: lib/ff_dpdk_if.c:1571 -/
theorem releases_wrapped_iff (p : RxPacket) (h : MbufHeap) (hdr : PktHdr) (hret : h.returned = [])
    (hhdr : hdr.len = p.pkt_len % 65536) :
    ReleasesEachOnce p ⟨h, some (hdr, p.segs.map fun s => ⟨s.id, s.data_len⟩)⟩ ↔
      p.pkt_len < 65536 := by
  have hsum : ((p.segs.map (fun s => (⟨s.id, s.data_len⟩ : BsdMbuf))).map BsdMbuf.m_len).sum =
      p.pkt_len := by
    rw [p.pkt_len_eq, RxPacket.segs, List.map_map]
    rfl
  constructor
  · rintro (⟨hdr', chain, hin, hch, hlen, -⟩ | ⟨hin, -, -⟩)
    · simp only [Option.some.injEq, Prod.mk.injEq] at hin
      obtain ⟨rfl, rfl⟩ := hin
      rw [hsum, hhdr] at hlen
      omega
    · simp at hin
  · intro hlt
    refine .inl ⟨_, _, rfl, rfl, ?_, hret⟩
    rw [hsum, hhdr]
    exact Nat.mod_eq_of_lt hlt

/-- A packet that is dropped after its first segment was wrapped has that segment given back
twice. -/
theorem not_releases_of_late_drop (p : RxPacket) (h : MbufHeap) (wrapped : List BsdMbuf) :
    ¬ ReleasesEachOnce p ⟨rtePktmbufFree p.segs.length
      (ffMbufFree h (⟨p.head.id, p.head.data_len⟩ :: wrapped)) (some p.head.id), none⟩ := by
  rintro (⟨hdr, chain, hin, -⟩ | ⟨-, hcount, -⟩)
  · simp at hin
  · have htwo := hcount p.head (by simp [RxPacket.segs])
    rw [rtePktmbufFree_after_ffMbufFree, List.count_append, List.count_append, List.count_cons_self,
      List.count_singleton_self] at htwo
    omega

/-- Every segment of a received chain is passed to the stack in its place or given back
exactly once, if and only if the packet is dropped before it is wrapped, or every allocation
succeeds and the packet length fits in 16 bits.
SOURCE: lib/ff_dpdk_if.c:1557-1605 -/
theorem ffVethInput_releases_iff (rx_csum : Bool) (alloc : ℕ → Bool) (p : RxPacket) :
    ReleasesEachOnce p (ffVethInput rx_csum alloc p) ↔ WrapsAllOrNothing rx_csum alloc p := by
  unfold ffVethInput WrapsAllOrNothing
  by_cases hc : (rx_csum && p.csum_bad) = true
  · rw [if_pos hc]
    simp only [Bool.and_eq_true] at hc
    exact ⟨fun _ => .inl hc, fun _ => releases_of_early_drop p⟩
  rw [if_neg hc]
  simp only [Bool.and_eq_true] at hc
  by_cases h0 : alloc 0 = true
  swap
  · rw [if_neg h0]
    exact ⟨fun _ => .inr (.inl (by simpa using h0)), fun _ => releases_of_early_drop p⟩
  rw [if_pos h0]
  by_cases hall : ∀ k ≤ p.rest.length, alloc k = true
  · -- everything is wrapped; what is left is the header's length
    rw [ffVethInputLoop_all alloc p _ _ 1 _ p.rest (fun i hi => hall (1 + i) (by omega))]
    have hchain : [(⟨p.head.id, p.head.data_len⟩ : BsdMbuf)] ++
        p.rest.map (fun s => ⟨s.id, s.data_len⟩) = p.segs.map (fun s => ⟨s.id, s.data_len⟩) := by
      simp [RxPacket.segs]
    rw [hchain, releases_wrapped_iff p _ _ rfl rfl]
    constructor
    · exact fun hlt => .inr (.inr ⟨hall, hlt⟩)
    · rintro (h | h | ⟨-, hlt⟩)
      · exact absurd h hc
      · simp [h0] at h
      · exact hlt
  · -- some later allocation fails
    push Not at hall
    obtain ⟨k, hk, hfail⟩ := hall
    have hkpos : 0 < k := by
      rcases Nat.eq_zero_or_pos k with rfl | hpos
      · exact absurd h0 hfail
      · exact hpos
    obtain ⟨wrapped, hw⟩ := ffVethInputLoop_fail alloc p ⟨linkChain (p.segs.map RteSeg.id), []⟩
      ⟨p.pkt_len % 65536, rx_csum, p.vlan_tci, p.timestamp⟩ 1
      [⟨p.head.id, p.head.data_len⟩] p.rest (k - 1) (by omega)
      (by rw [show 1 + (k - 1) = k by omega]; simpa using hfail)
    rw [hw]
    refine iff_of_false (not_releases_of_late_drop p _ wrapped) ?_
    rintro (h | h | ⟨h, -⟩)
    · exact absurd h hc
    · simp [h0] at h
    · exact absurd (h k hk) hfail

/-- A received packet of two segments of 100 bytes. -/
def twoSegments : RxPacket where
  head := ⟨0, 100⟩
  rest := [⟨1, 100⟩]
  pkt_len := 200
  csum_bad := false
  vlan_tci := none
  timestamp := none
  nodup := by decide
  pkt_len_eq := by decide

/-- With two segments and the second allocation failing, the first segment is given back twice
and the second never. -/
theorem twoSegments_not_released :
    ¬ ReleasesEachOnce twoSegments (ffVethInput false (fun k => k == 0) twoSegments) ∧
      (ffVethInput false (fun k => k == 0) twoSegments).heap.returned = [0, 0] := by
  have hret : (ffVethInput false (fun k => k == 0) twoSegments).heap.returned = [0, 0] := by
    decide
  refine ⟨?_, hret⟩
  rintro (⟨hdr, chain, hin, -⟩ | ⟨-, hcount, -⟩)
  · simp [ffVethInput, ffVethInputLoop, twoSegments] at hin
  · have h0 := hcount ⟨0, 100⟩ (by simp [RxPacket.segs, twoSegments])
    rw [hret] at h0
    simp at h0

end FStack.Analysis
