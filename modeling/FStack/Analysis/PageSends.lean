import FStack.Analysis.ConservedPages

/-!
# Packets that are sent from the page array

A packet that `ff_if_send_onepkt` queues has to carry the bytes of the packet of the stack, and a packet that it drops
has to be freed together with every `rte_mbuf` that was allocated for it.

The way a packet is sent is chosen by its first mbuf.  With a first mbuf in the page array, a later one that wraps a
received `rte_mbuf` has no page, and `ff_mem_virt2phy` panics.  With a first mbuf that wraps a received `rte_mbuf`, that
`rte_mbuf` is sent as it was received, whatever the stack has made of it since.  `page_send_right_iff` is the condition
under which neither happens.
-/

set_option autoImplicit false

namespace FStack.Analysis

open FStack.Model FStack.Prelude

variable {n : ℕ} {p : MemPages} {segs : List (ℕ × SegData)}

/-! ## What sending has to do -/

/-- An address in the page array. -/
def InPageArray (p : MemPages) (addr : ℕ) : Prop := p.ff_page_start ≤ addr ∧ addr < p.ff_page_end

/-- The data of an mbuf lies in a page of the array, or the mbuf wraps a received `rte_mbuf`, whose buffers are
elsewhere. -/
def BufPlaced (p : MemPages) (buf : BsdBuf) : Prop :=
  match buf.extcl with
  | none => InPageArray p buf.m_data ∧ buf.m_data % 4096 + buf.m_len ≤ 4096
  | some src => ¬ InPageArray p buf.m_data ∧ buf.m_len < 2 ^ 16 ∧ ∀ seg ∈ src.segs, ¬ InPageArray p seg.2.buf_addr

/-- A segment in the page array has the physical address of its page, plus the offset in the page. -/
def IovaRight (p : MemPages) (seg : SegData) : Prop :=
  InPageArray p seg.buf_addr → seg.buf_iova =
    (p.ff_mpage_phy ((seg.buf_addr - p.ff_page_start) / 4096) + (seg.buf_addr - p.ff_page_start) % 4096) % 2 ^ 64

/-- A chain carries the packet. -/
structure ChainRight (p : MemPages) (mem : ℕ → UInt8) (m : PagePacket) (head : RteChain) : Prop where
  bytes : head.bytes mem = m.bytes mem
  pkt_len : head.pkt_len = m.total
  nb_segs : head.nb_segs = head.segs.length
  iova : ∀ seg ∈ head.segs, IovaRight p seg.2

/-- The packet is freed once, and what was allocated for it as well. -/
structure PageDropped (m : PagePacket) (st st' : PageTx) : Prop where
  bsdFreed : st'.bsdFreed = st.bsdFreed ++ [m.id]
  tables : st'.m_table = st.m_table ∧ st'.bsd_m_table = st.bsd_m_table
  freed : ∃ ids, st'.allocated = st.allocated ++ ids ∧ st'.freed = st.freed ++ ids

/-- A chain that carries the packet is in the table, next to the packet. -/
structure PageQueued (p : MemPages) (mem : ℕ → UInt8) (m : PagePacket) (st st' : PageTx) : Prop where
  chain : ∃ head, ChainRight p mem m head ∧ st'.m_table = Function.update st.m_table st.len (some head) ∧
    st'.allocated = st.allocated ++ head.segs.map Prod.fst
  bsd : st'.bsd_m_table = Function.update st.bsd_m_table st.len (some m.id)
  kept : st'.freed = st.freed ∧ st'.bsdFreed = st.bsdFreed

/-- There is no panic, and the packet is dropped or queued. -/
def PageSendRight (p : MemPages) (mem : ℕ → UInt8) (m : PagePacket) (st : PageTx) : Option (ℕ × PageTx) → Prop
  | none => False
  | some (len, st') => len = 0 ∧ PageDropped m st st' ∨ len = st.len + 1 ∧ PageQueued p mem m st st'

/-- The next `n` calls of `rte_pktmbuf_alloc` succeed. -/
def MbufsGranted (alloc : ℕ → Bool) (st : PageTx) (n : ℕ) : Prop := ∀ k < n, alloc (st.asked + k) = true

/-- When the first mbuf's data is in the array, behind its first byte: the address of every mbuf that an `rte_mbuf` is
allocated for is found in the array, and there are less than 2^16 of them.  Otherwise, if the first mbuf wraps a received
`rte_mbuf` that can be cloned: that `rte_mbuf` still holds the bytes of the packet, and has less than 2^16 segments. -/
def PageSendSafe (p : MemPages) (mem : ℕ → UInt8) (alloc : ℕ → Bool) (m : PagePacket) (st : PageTx) : Prop :=
  if p.ffChkVma m.first.m_data then
    (∀ i buf, m.bufs[i]? = some buf → MbufsGranted alloc st (i + 1) → (p.ffMemVirt2phy buf.m_data).isSome) ∧
      (MbufsGranted alloc st m.bufs.length → m.bufs.length < 2 ^ 16)
  else
    ∀ src, m.first.extcl = some src → MbufsGranted alloc st src.segs.length →
      src.bytes mem = m.bytes mem ∧ src.pkt_len = m.total ∧ src.segs.length < 2 ^ 16

/-! ## Making segments -/

section Segments

variable {α : Type} {alloc : ℕ → Bool} {fill : α → Option SegData}

theorem MbufsGranted.tail {st : PageTx} (h : MbufsGranted alloc st (n + 1)) :
    MbufsGranted alloc (st.alloc alloc).2 n := by
  intro k hk
  have hnext : (st.alloc alloc).2.asked = st.asked + 1 := by
    rw [PageTx.alloc]
    split <;> rfl
  rw [hnext, Nat.add_assoc, Nat.add_comm 1 k]
  exact h (k + 1) (by omega)

theorem mbufsGranted_succ {st : PageTx} :
    MbufsGranted alloc st (n + 1) ↔ alloc st.asked = true ∧ MbufsGranted alloc (st.alloc alloc).2 n := by
  refine ⟨fun h => ⟨h 0 (Nat.succ_pos n), h.tail⟩, fun h k hk => ?_⟩
  cases k with
  | zero => exact h.1
  | succ k =>
    have hnext := h.2 k (by omega)
    rw [PageTx.alloc, if_pos h.1] at hnext
    rwa [Nat.add_comm k 1, ← Nat.add_assoc]

/-- The segments that are made of some items. -/
theorem makeSegs_granted (fill : α → Option SegData) {as : List α} (done : List (ℕ × SegData)) {st : PageTx} (hgranted : MbufsGranted alloc st as.length)
    (hfill : ∀ a ∈ as, (fill a).isSome) :
    ∃ segs asked, segs.map (fun seg => some seg.2) = as.map fill ∧
      makeSegs alloc fill as done st =
        some (some (done ++ segs), { st with asked := asked, allocated := st.allocated ++ segs.map Prod.fst }) := by
  induction as generalizing done st with
  | nil => exact ⟨[], st.asked, rfl, by simp [makeSegs]⟩
  | cons a as ih =>
    obtain ⟨halloc, htail⟩ := mbufsGranted_succ.mp hgranted
    rw [List.forall_mem_cons] at hfill
    obtain ⟨seg, hseg⟩ := Option.isSome_iff_exists.mp hfill.1
    rw [PageTx.alloc, if_pos halloc] at htail
    obtain ⟨segs, asked, hsegs, hmake⟩ := ih (done ++ [(st.asked, seg)]) htail hfill.2
    refine ⟨(st.asked, seg) :: segs, asked, ?_, ?_⟩
    · rw [List.map_cons, List.map_cons, hsegs, hseg]
    · rw [makeSegs, PageTx.alloc, if_pos halloc]
      simp only [hseg, hmake, List.append_assoc, List.singleton_append, List.map_cons]

/-- When there is no `rte_mbuf` for one of the items, all that were made are freed. -/
theorem makeSegs_refused (fill : α → Option SegData) {as : List α} (done : List (ℕ × SegData)) {st : PageTx}
    (hrefused : ¬ MbufsGranted alloc st as.length)
    (hfill : ∀ i a, as[i]? = some a → MbufsGranted alloc st (i + 1) → (fill a).isSome) :
    ∃ ids asked, makeSegs alloc fill as done st =
      some (none, { st with
        asked := asked, allocated := st.allocated ++ ids, freed := st.freed ++ (done.map Prod.fst ++ ids) }) := by
  induction as generalizing done st with
  | nil => exact absurd (fun k hk => absurd hk (Nat.not_lt_zero k)) hrefused
  | cons a as ih =>
    by_cases halloc : alloc st.asked = true
    · have htail : ¬ MbufsGranted alloc (st.alloc alloc).2 as.length := fun h => hrefused (mbufsGranted_succ.mpr ⟨halloc, h⟩)
      have hfirst : MbufsGranted alloc st 1 := mbufsGranted_succ.mpr ⟨halloc, fun k hk => absurd hk (Nat.not_lt_zero k)⟩
      obtain ⟨seg, hseg⟩ := Option.isSome_iff_exists.mp (hfill 0 a rfl hfirst)
      obtain ⟨ids, asked, hmake⟩ := ih (done ++ [(st.asked, seg)]) htail fun i b hb hgranted =>
        hfill (i + 1) b hb (mbufsGranted_succ.mpr ⟨halloc, hgranted⟩)
      refine ⟨st.asked :: ids, asked, ?_⟩
      rw [PageTx.alloc, if_pos halloc] at hmake
      rw [makeSegs, PageTx.alloc, if_pos halloc]
      simp only [hseg, hmake, List.append_assoc, List.singleton_append, List.map_append, List.map_cons, List.map_nil]
    · refine ⟨[], st.asked + 1, ?_⟩
      rw [makeSegs, PageTx.alloc, if_neg halloc]
      simp [PageTx.free]

/-- An item that cannot be filled makes the process panic, if there is an `rte_mbuf` for it. -/
theorem makeSegs_panic {as : List α} {done : List (ℕ × SegData)} {st : PageTx} {i : ℕ} {a : α}
    (ha : as[i]? = some a) (hgranted : MbufsGranted alloc st (i + 1)) (hfill : fill a = none) :
    makeSegs alloc fill as done st = none := by
  induction as generalizing done st i with
  | nil => exact absurd ha (by simp)
  | cons b as ih =>
    obtain ⟨halloc, htail⟩ := mbufsGranted_succ.mp hgranted
    rw [PageTx.alloc, if_pos halloc] at htail
    rw [makeSegs, PageTx.alloc, if_pos halloc]
    cases i with
    | zero =>
      obtain rfl := Option.some.inj ha
      simp only [hfill]
    | succ i =>
      cases hb : fill b with
      | none => rfl
      | some seg =>
        exact ih ha htail

end Segments

/-! ## The two ways -/

section Send

variable {mem_size : BitVec 32} {mapping : Mapping (bsdMemsz mem_size)} {rte_mem_virt2phy : ℕ → ℕ} {s : MemRun}
  {mem : ℕ → UInt8} {alloc : ℕ → Bool} {m : PagePacket} {st : PageTx}

/-- An address in the array is translated with the physical address of its page. -/
theorem ffMemVirt2phy_inside (h : PagesKept mapping rte_mem_virt2phy s) {a : ℕ} (ha : InPageArray s.pages a) :
    s.pages.ffMemVirt2phy a = some ((s.pages.ff_mpage_phy ((a - s.pages.ff_page_start) / 4096) +
      (a - s.pages.ff_page_start) % 4096) % 2 ^ 64) := by
  have hfits := mapping.fits
  have haligned := mapping.aligned
  have hlen := bsdMemsz_lt mem_size (by omega)
  rw [InPageArray, h.start, h.finish] at ha
  have hpage : (a - mapping.start) / 4096 < bsdMemsz mem_size / 4096 := by omega
  have haddr : mapping.start + 4096 * ((a - mapping.start) / 4096) + (a - mapping.start) % 4096 = a := by omega
  have hindex := pageIndex_eq h hlen.1 hpage (Nat.mod_lt (a - mapping.start) (by decide))
  rw [haddr] at hindex
  have hsize : (s.pages.ff_mpage_ctl.size % 2 ^ 32).toNat = bsdMemsz mem_size / 4096 := by
    rw [h.size]
    omega
  have hoffset : a % 4096 = (a - mapping.start) % 4096 := by omega
  have hin : ¬ (a - mapping.start) / 4096 ≥ bsdMemsz mem_size / 4096 := Nat.not_le.mpr hpage
  rw [MemPages.ffMemVirt2phy, hindex, hsize, hoffset, h.start]
  exact if_neg hin

/-- No length of an mbuf is cut. -/
theorem m_len_lt {buf : BsdBuf} (h : BufPlaced p buf) : buf.m_len < 2 ^ 16 := by
  rw [BufPlaced] at h
  split at h
  · omega
  · exact h.2.1

/-- Segments that are made of items one by one carry what the items carry. -/
theorem flatMap_segs {α : Type} {fill : α → Option SegData} {g : α → List UInt8} {as : List α}
    (hsegs : segs.map (fun seg => some seg.2) = as.map fill)
    (hbytes : ∀ a ∈ as, ∀ seg, fill a = some seg → seg.bytes mem = g a) :
    segs.flatMap (fun seg => seg.2.bytes mem) = as.flatMap g := by
  induction as generalizing segs with
  | nil =>
    obtain rfl := List.map_eq_nil_iff.mp hsegs
    rfl
  | cons a as ih =>
    obtain ⟨seg, rest, rfl, hseg, hrest⟩ := List.map_eq_cons_iff.mp hsegs
    rw [List.forall_mem_cons] at hbytes
    rw [List.flatMap_cons, List.flatMap_cons, ih hrest hbytes.2, hbytes.1 seg.2 hseg.symm]

/-- The chain of a packet whose mbufs are all found in the array. -/
theorem chain_of_bufs (h : PagesKept mapping rte_mem_virt2phy s) (hplaced : ∀ buf ∈ m.bufs, BufPlaced s.pages buf)
    (hlength : m.bufs.length < 2 ^ 16) (hsegs : segs.map (fun seg => some seg.2) = m.bufs.map s.pages.segOf) :
    ChainRight s.pages mem m ⟨m.total % 2 ^ 32, segs.length % 2 ^ 16, segs⟩ := by
  have htotal := m.total_lt
  have hcount : segs.length = m.bufs.length := by simpa using congrArg List.length hsegs
  refine ⟨flatMap_segs hsegs fun buf hbuf seg hseg => ?_, Nat.mod_eq_of_lt (by omega),
    Nat.mod_eq_of_lt (hcount ▸ hlength), fun seg hseg hin => ?_⟩
  · obtain ⟨iova, -, rfl⟩ := Option.map_eq_some_iff.mp hseg
    rw [SegData.bytes, Nat.mod_eq_of_lt (m_len_lt (hplaced buf hbuf)), Nat.add_zero]
  · have hmem : some seg.2 ∈ m.bufs.map s.pages.segOf := hsegs ▸ List.mem_map_of_mem hseg
    obtain ⟨buf, -, hbuf⟩ := List.mem_map.mp hmem
    obtain ⟨iova, hiova, hdata⟩ := Option.map_eq_some_iff.mp hbuf
    rw [← hdata] at hin ⊢
    exact Option.some.inj (hiova.symm.trans (ffMemVirt2phy_inside h hin))

/-- A packet that is queued is right if its chain is. -/
theorem queued_right_iff (head : RteChain) (asked : ℕ) :
    PageSendRight p mem m st (some (st.len + 1,
      { st with
        m_table := Function.update st.m_table st.len (some head)
        bsd_m_table := Function.update st.bsd_m_table st.len (some m.id)
        asked := asked, allocated := st.allocated ++ head.segs.map Prod.fst })) ↔ ChainRight p mem m head := by
  constructor
  · rintro (⟨hlen, -⟩ | ⟨-, hqueued⟩)
    · exact absurd hlen (Nat.succ_ne_zero st.len)
    · obtain ⟨head', hchain, htable, -⟩ := hqueued.chain
      have hslot : Function.update st.m_table st.len (some head) st.len =
          Function.update st.m_table st.len (some head') st.len := congrFun htable st.len
      rw [Function.update_self, Function.update_self] at hslot
      rwa [Option.some.inj hslot]
  · intro hchain
    exact .inr ⟨rfl, ⟨head, hchain, rfl, rfl⟩, rfl, rfl, rfl⟩

/-- A packet that is dropped, with all that was allocated for it, is right. -/
theorem dropped_right (p : MemPages) (mem : ℕ → UInt8) (m : PagePacket) (st : PageTx) (asked : ℕ) (ids : List ℕ) :
    PageSendRight p mem m st (some (0, PageTx.freeBsd
      { st with asked := asked, allocated := st.allocated ++ ids, freed := st.freed ++ ids } m)) :=
  .inl ⟨rfl, rfl, ⟨rfl, rfl⟩, ids, rfl, rfl⟩

theorem segOf_isSome (p : MemPages) (buf : BsdBuf) : (p.segOf buf).isSome = (p.ffMemVirt2phy buf.m_data).isSome :=
  Option.isSome_map

/-- The way through `ff_bsd_to_rte`. -/
theorem bsdToRte_right_iff (h : PagesKept mapping rte_mem_virt2phy s)
    (hplaced : ∀ buf ∈ m.bufs, BufPlaced s.pages buf) (hvma : s.pages.ffChkVma m.first.m_data = true) :
    PageSendRight s.pages mem m st (s.pages.ffIfSendOnepkt alloc m st) ↔ PageSendSafe s.pages mem alloc m st := by
  rw [PageSendSafe, if_pos hvma]
  simp only [← segOf_isSome, MemPages.ffIfSendOnepkt, hvma, if_true, MemPages.ffBsdToRte]
  by_cases hfound : ∀ i buf, m.bufs[i]? = some buf → MbufsGranted alloc st (i + 1) → (s.pages.segOf buf).isSome
  · rw [and_iff_right hfound]
    by_cases hgranted : MbufsGranted alloc st m.bufs.length
    · have hfill : ∀ buf ∈ m.bufs, (s.pages.segOf buf).isSome := by
        intro buf hbuf
        obtain ⟨i, hi, hget⟩ := List.mem_iff_getElem.mp hbuf
        exact hfound i buf (List.getElem?_eq_some_iff.mpr ⟨hi, hget⟩) fun k hk => hgranted k (by omega)
      obtain ⟨segs, asked, hsegs, hmake⟩ := makeSegs_granted s.pages.segOf [] hgranted hfill
      rw [hmake]
      have hcount : segs.length = m.bufs.length := by simpa using congrArg List.length hsegs
      refine (queued_right_iff ⟨m.total % 2 ^ 32, segs.length % 2 ^ 16, segs⟩ asked).trans ?_
      constructor
      · intro hchain _
        have hnb : segs.length % 2 ^ 16 = segs.length := hchain.nb_segs
        omega
      · intro hlength
        exact chain_of_bufs h hplaced (hlength hgranted) hsegs
    · obtain ⟨ids, asked, hmake⟩ := makeSegs_refused s.pages.segOf [] hgranted hfound
      rw [hmake]
      exact iff_of_true (dropped_right s.pages mem m st asked ids) fun hall => absurd hall hgranted
  · refine iff_of_false ?_ fun hsafe => hfound hsafe.1
    push Not at hfound
    obtain ⟨i, buf, hbuf, hgranted, hnone⟩ := hfound
    rw [makeSegs_panic hbuf hgranted (Option.not_isSome_iff_eq_none.mp hnone)]
    exact id

/-- The way through `ff_extcl_to_rte`. -/
theorem extcl_right_iff (hplaced : BufPlaced p m.first) (hvma : ¬ p.ffChkVma m.first.m_data = true) :
    PageSendRight p mem m st (p.ffIfSendOnepkt alloc m st) ↔ PageSendSafe p mem alloc m st := by
  rw [PageSendSafe, if_neg hvma, MemPages.ffIfSendOnepkt, if_neg hvma, ffExtclClone]
  cases hsrc : m.first.extcl with
  | none =>
    have hdrop := dropped_right p mem m st st.asked []
    rw [List.append_nil, List.append_nil] at hdrop
    exact iff_of_true hdrop fun src hsome => absurd hsome (Option.some_ne_none src).symm
  | some src =>
    rw [BufPlaced, hsrc] at hplaced
    simp only [Option.some.injEq, forall_eq', rtePktmbufClone]
    by_cases hgranted : MbufsGranted alloc st src.segs.length
    · obtain ⟨segs, asked, hsegs, hmake⟩ := makeSegs_granted (fun seg : ℕ × SegData => some seg.2) []
        hgranted fun seg _ => rfl
      rw [hmake]
      have hcount : segs.length = src.segs.length := by simpa using congrArg List.length hsegs
      have hbytes : segs.flatMap (fun seg => seg.2.bytes mem) = src.bytes mem :=
        flatMap_segs hsegs fun seg _ data hdata => by rw [Option.some.inj hdata]
      have houtside : ∀ seg ∈ segs, ¬ InPageArray p seg.2.buf_addr := by
        intro seg hseg
        have hmem : some seg.2 ∈ src.segs.map fun seg => some seg.2 := hsegs ▸ List.mem_map_of_mem hseg
        obtain ⟨old, hold, hdata⟩ := List.mem_map.mp hmem
        rw [← Option.some.inj hdata]
        exact hplaced.2.2 old hold
      refine (queued_right_iff ⟨src.pkt_len, segs.length % 2 ^ 16, segs⟩ asked).trans ?_
      constructor
      · intro hchain _
        have hnb : segs.length % 2 ^ 16 = segs.length := hchain.nb_segs
        exact ⟨hbytes.symm.trans hchain.bytes, hchain.pkt_len, by omega⟩
      · intro hsafe
        obtain ⟨hsame, hlen, hlength⟩ := hsafe hgranted
        exact ⟨hbytes.trans hsame, hlen, Nat.mod_eq_of_lt (hcount ▸ hlength), fun seg hseg hin =>
          absurd hin (houtside seg hseg)⟩
    · obtain ⟨ids, asked, hmake⟩ := makeSegs_refused (fun seg : ℕ × SegData => some seg.2) []
        hgranted fun _ _ _ _ => rfl
      rw [hmake]
      exact iff_of_true (dropped_right p mem m st asked ids) fun hall => absurd hall hgranted

end Send

/-- `ff_if_send_onepkt` sends or drops a packet as it has to, in every state of the page allocator, if and only if the
packet is safe. -/
theorem page_send_right_iff {mem_size : BitVec 32} {answer : Option (Mapping (bsdMemsz mem_size))} {locked : Bool}
    {rte_mem_virt2phy : ℕ → ℕ} {p : MemPages} (hinit : ffMmapInit mem_size answer locked rte_mem_virt2phy = some p)
    {calls : List MemCall} (hcalls : AllSteps memStep Unmaps ⟨p, []⟩ calls) (mem : ℕ → UInt8) (alloc : ℕ → Bool)
    (st : PageTx) {m : PagePacket} (hplaced : ∀ buf ∈ m.bufs, BufPlaced (calls.foldl memStep ⟨p, []⟩).pages buf) :
    PageSendRight (calls.foldl memStep ⟨p, []⟩).pages mem m st
        ((calls.foldl memStep ⟨p, []⟩).pages.ffIfSendOnepkt alloc m st) ↔
      PageSendSafe (calls.foldl memStep ⟨p, []⟩).pages mem alloc m st := by
  obtain ⟨mapping, hkept⟩ := kept_of_calls hinit hcalls
  by_cases hvma : (calls.foldl memStep ⟨p, []⟩).pages.ffChkVma m.first.m_data = true
  · exact bsdToRte_right_iff hkept hplaced hvma
  · exact extcl_right_iff (hplaced m.first List.mem_cons_self) hvma

/-- An array of 1 MiB. -/
def smallArray : Mapping (bsdMemsz 1) := ⟨0x7f0000000000, by decide, by decide, by decide, by decide⟩

/-- No packet has been sent. -/
def PageTx.start : PageTx := ⟨0, fun _ => none, fun _ => none, 0, [], [], []⟩

/-- A packet with a header of 54 bytes in the array. -/
def headerPacket : PagePacket := ⟨7, ⟨0x7f0000001064, 54, none⟩, [], 54, by decide, by decide⟩

theorem header_inside {rte_mem_virt2phy : ℕ → ℕ} {s : MemRun} (hkept : PagesKept smallArray rte_mem_virt2phy s) :
    InPageArray s.pages 0x7f0000001064 ∧ s.pages.ffChkVma 0x7f0000001064 = true := by
  have hstart : s.pages.ff_page_start = 0x7f0000000000 := hkept.start
  have hfinish : s.pages.ff_page_end = 0x7f0000100000 := hkept.finish
  rw [InPageArray, MemPages.ffChkVma, hstart, hfinish]
  decide

/-- A packet in the array, for which there is an `rte_mbuf`. -/
theorem page_send_right_header :
    ∃ p, ffMmapInit 1 (some smallArray) true (· % 2 ^ 40) = some p ∧
      PageSendRight p (fun _ => 0) headerPacket PageTx.start
        (p.ffIfSendOnepkt (fun _ => true) headerPacket PageTx.start) := by
  obtain ⟨p, hp⟩ := ffMmapInit_isSome smallArray (· % 2 ^ 40) (fun a => by rw [RTE_BAD_IOVA]; omega)
  have hkept := ffMmapInit_kept hp
  obtain ⟨hin, hvma⟩ := header_inside hkept
  have hcalls : AllSteps memStep Unmaps ⟨p, []⟩ [] := trivial
  refine ⟨p, hp, (page_send_right_iff hp hcalls _ _ _ ?_).mpr ?_⟩
  · intro buf hbuf
    obtain rfl := List.mem_singleton.mp hbuf
    exact ⟨hin, by decide⟩
  · refine (if_pos hvma).mpr ⟨fun i buf hbuf _ => ?_, fun _ => by decide⟩
    obtain rfl := List.mem_singleton.mp (List.mem_of_getElem? hbuf)
    exact Option.isSome_of_eq_some (ffMemVirt2phy_inside hkept hin)

/-- When an address is found in the array: when it is in the array, or away from it by a multiple of 2^44. -/
theorem ffMemVirt2phy_isSome_iff {mem_size : BitVec 32} {mapping : Mapping (bsdMemsz mem_size)}
    {rte_mem_virt2phy : ℕ → ℕ} {s : MemRun} (h : PagesKept mapping rte_mem_virt2phy s) (a : ℕ) :
    (s.pages.ffMemVirt2phy a).isSome ↔ (a + 2 ^ 64 - mapping.start) % 2 ^ 44 < bsdMemsz mem_size := by
  have hfits := mapping.fits
  have hlen := bsdMemsz_lt mem_size (by omega)
  have hsize : (s.pages.ff_mpage_ctl.size % 2 ^ 32).toNat = bsdMemsz mem_size / 4096 := by
    rw [h.size]
    omega
  rw [MemPages.ffMemVirt2phy, hsize, h.start, Nat.shiftRight_eq_div_pow]
  by_cases hin : (a + 2 ^ 64 - mapping.start) % 2 ^ 64 / 2 ^ 12 % 2 ^ 32 ≥ bsdMemsz mem_size / 4096
  · rw [if_pos hin]
    exact iff_of_false (by simp) (by omega)
  · rw [if_neg hin]
    exact iff_of_true rfl (by omega)

/-- A received packet of 64 bytes. -/
def receivedPacket : RteChain := ⟨64, 1, [(0, ⟨0x100000000, 0, 128, 64⟩)]⟩

/-- A header of 54 bytes in the array, in front of a received packet. -/
def prependedPacket : PagePacket :=
  ⟨7, ⟨0x7f0000001064, 54, none⟩, [⟨0x100000080, 64, some receivedPacket⟩], 118, by decide, by decide⟩

/-- A received packet in front of which the stack puts a header of its own makes the process panic. -/
theorem prepended_packet_panics :
    ¬ ∀ (mem_size : BitVec 32) (answer : Option (Mapping (bsdMemsz mem_size))) (locked : Bool)
      (rte_mem_virt2phy : ℕ → ℕ) (p : MemPages), ffMmapInit mem_size answer locked rte_mem_virt2phy = some p →
      ∀ calls, AllSteps memStep Unmaps ⟨p, []⟩ calls → ∀ (mem : ℕ → UInt8) (alloc : ℕ → Bool) (st : PageTx)
      (m : PagePacket), (∀ buf ∈ m.bufs, BufPlaced (calls.foldl memStep ⟨p, []⟩).pages buf) →
      PageSendRight (calls.foldl memStep ⟨p, []⟩).pages mem m st
        ((calls.foldl memStep ⟨p, []⟩).pages.ffIfSendOnepkt alloc m st) := by
  intro h
  obtain ⟨p, hp⟩ := ffMmapInit_isSome smallArray (· % 2 ^ 40) (fun a => by rw [RTE_BAD_IOVA]; omega)
  have hkept := ffMmapInit_kept hp
  obtain ⟨hin, hvma⟩ := header_inside hkept
  have hplaced : ∀ buf ∈ prependedPacket.bufs, BufPlaced p buf := by
    intro buf hbuf
    rcases List.mem_cons.mp hbuf with rfl | hbuf
    · exact ⟨hin, by decide⟩
    · obtain rfl := List.mem_singleton.mp hbuf
      have houtside : ∀ a, a < 0x7f0000000000 → ¬ InPageArray p a := fun a ha hinside =>
        absurd hinside.1 (Nat.not_le.mpr (hkept.start ▸ ha))
      refine ⟨houtside _ (by decide), by decide, fun seg hseg => ?_⟩
      obtain rfl := List.mem_singleton.mp hseg
      exact houtside _ (by decide)
  have hright := h 1 _ true _ p hp [] trivial (fun _ => 0) (fun _ => true) PageTx.start prependedPacket hplaced
  have hsafe := (bsdToRte_right_iff hkept hplaced hvma).mp hright
  have hfound := ((if_pos hvma).mp hsafe).1 1 ⟨0x100000080, 64, some receivedPacket⟩ rfl fun k _ => rfl
  rw [ffMemVirt2phy_isSome_iff hkept] at hfound
  exact absurd hfound (by decide)

end FStack.Analysis
