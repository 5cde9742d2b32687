import FStack.Prelude.Pooled
import FStack.Prelude.Monitored
import FStack.Model.PageAlloc

/-!
# The pages of the array

Every page of the array is free or with the stack, once.  A push is never refused, since a page that comes back was
taken out, and an address inside a page that is out is translated with the physical address of that page
(`page_allocator_right`).

`ff_mmap_init` gets here only with an array of less than 2^31 bytes: a `mem_size` for which the shifted `int` is
negative asks `mmap` for more than there is.
-/

set_option autoImplicit false

namespace FStack.Analysis

open FStack.Model FStack.Prelude

variable {start i a : ℕ} {ctl : StackList} {mem_size : BitVec 32}

/-- The pages of an array of `len` bytes. -/
def arrayPages (start len : ℕ) : List ℕ := (List.range (len / 4096)).map fun i => start + 4096 * i

/-- What the allocator has to keep: the pages that are out are pages of the array, each of them once, and none is lost; a
page that comes back is stored; a page is refused exactly when none is free; and an address inside a page that is out is
translated with the physical address that was recorded for the page. -/
structure PagesRight (rte_mem_virt2phy : ℕ → ℕ) (s : MemRun) : Prop where
  distinct : s.handed.Nodup
  inside : ∀ a ∈ s.handed,
    s.pages.ff_page_start ≤ a ∧ a + 4096 ≤ s.pages.ff_page_end ∧ (a - s.pages.ff_page_start) % 4096 = 0
  conserved : s.pages.ff_mpage_ctl.top + s.handed.length = ((s.pages.ff_page_end - s.pages.ff_page_start) / 4096 : ℕ)
  kept : ∀ a ∈ s.handed, (stklistPush s.pages.ff_mpage_ctl a).2 = 0
  null_iff : ∀ answer, (ffMmap s.pages 4096 answer).2 = 0 ↔ s.pages.ff_mpage_ctl.top = 0
  phys : ∀ a ∈ s.handed, ∀ off < 4096,
    s.pages.ffMemVirt2phy (a + off) =
      some ((s.pages.ff_mpage_phy ((a - s.pages.ff_page_start) / 4096) + off) % 2 ^ 64) ∧
    s.pages.ff_mpage_phy ((a - s.pages.ff_page_start) / 4096) = rte_mem_virt2phy a

/-! ## The array -/

/-- An array that can be mapped has less than 2^31 bytes, and it consists of pages. -/
theorem bsdMemsz_lt (mem_size : BitVec 32) (h : bsdMemsz mem_size ≤ 2 ^ 63) :
    bsdMemsz mem_size < 2 ^ 31 ∧ bsdMemsz mem_size % 4096 = 0 := by
  have hlt := (mem_size <<< 20).isLt
  have hshift : (mem_size <<< 20).toNat = mem_size.toNat * 2 ^ 20 % 2 ^ 32 := by
    rw [BitVec.toNat_shiftLeft, Nat.shiftLeft_eq]
  rw [bsdMemsz, BitVec.toNat_signExtend, BitVec.toNat_setWidth, BitVec.msb_eq_decide] at *
  by_cases hneg : 2 ^ (32 - 1) ≤ (mem_size <<< 20).toNat
  · rw [decide_eq_true hneg, if_pos rfl] at h
    omega
  · rw [decide_eq_false hneg, if_neg Bool.false_ne_true] at h ⊢
    omega

theorem pageAddr_eq (hi : i < 2 ^ 19) (hstart : start + 4096 * i < 2 ^ 64) :
    pageAddr start i = start + 4096 * i := by
  have hmsb : (BitVec.ofNat 32 (4096 * i)).msb = false := by
    rw [BitVec.msb_eq_false_iff_two_mul_lt, BitVec.toNat_ofNat]
    omega
  rw [pageAddr, BitVec.toNat_signExtend, BitVec.toNat_setWidth, hmsb, if_neg Bool.false_ne_true, BitVec.toNat_ofNat]
  omega

/-- The first `i` pages are on the stack, and their physical addresses are in the table. -/
structure PagesFilled (start : ℕ) (rte_mem_virt2phy : ℕ → ℕ) (i : ℕ) (ctl : StackList) (phy : ℕ → ℕ) : Prop where
  top : ctl.top = i
  ele : ∀ j < i, ctl.ele j = start + 4096 * j
  phy : ∀ j < i, phy j = rte_mem_virt2phy (start + 4096 * j)

/-- A table is filled by one entry more. -/
theorem forall_lt_update {f g : ℕ → ℕ} {v : ℕ} (h : ∀ j < i, f j = g j) (hv : v = g i) :
    ∀ j < i + 1, Function.update f i v j = g j := by
  intro j hj
  by_cases hji : j = i
  · rw [hji, Function.update_self, hv]
  · rw [Function.update_of_ne hji]
    exact h j (by omega)

theorem initPages_filled {rte_mem_virt2phy : ℕ → ℕ} {n : ℕ} {ctl' : StackList} {phy phy' : ℕ → ℕ}
    (hfilled : PagesFilled start rte_mem_virt2phy i ctl phy) (hsize : ctl.size = (i + n : ℕ)) (hn : i + n ≤ 2 ^ 19)
    (hstart : start + 4096 * (i + n) < 2 ^ 64) (h : initPages start rte_mem_virt2phy n i ctl phy = some (ctl', phy')) :
    PagesFilled start rte_mem_virt2phy (i + n) ctl' phy' ∧ ctl'.size = ctl.size := by
  induction n generalizing i ctl phy with
  | zero =>
    rw [initPages] at h
    obtain ⟨rfl, rfl⟩ := Prod.mk.inj (Option.some.inj h)
    exact ⟨hfilled, rfl⟩
  | succ n ih =>
    have haddr : pageAddr start i = start + 4096 * i := pageAddr_eq (by omega) (by omega)
    have hpush : stklistPush ctl (start + 4096 * i) =
        ({ ctl with ele := Function.update ctl.ele i (start + 4096 * i), top := (i + 1 : ℕ) }, 0) := by
      rw [stklistPush, if_pos (by rw [hfilled.top, hsize]; omega), hfilled.top]
      rfl
    simp only [initPages, haddr, hpush] at h
    split at h
    · exact absurd h (Option.some_ne_none _).symm
    · have hnext : PagesFilled start rte_mem_virt2phy (i + 1)
          { ctl with ele := Function.update ctl.ele i (start + 4096 * i), top := (i + 1 : ℕ) }
          (Function.update phy i (rte_mem_virt2phy (start + 4096 * i))) :=
        ⟨rfl, forall_lt_update hfilled.ele rfl, forall_lt_update hfilled.phy rfl⟩
      have hrest := ih hnext (by rw [hsize]; congr 1; omega) (by omega) (by rwa [Nat.add_right_comm, Nat.add_assoc]) h
      rwa [Nat.add_right_comm, Nat.add_assoc] at hrest

/-- The free pages, the next one first. -/
def freePages (ctl : StackList) : List ℕ := ((List.range ctl.top.toNat).map ctl.ele).reverse

theorem freePages_push {val : ℕ} (htop : 0 ≤ ctl.top) (hroom : ctl.top < ctl.size) :
    freePages (stklistPush ctl val).1 = val :: freePages ctl := by
  have hsucc : (ctl.top + 1).toNat = ctl.top.toNat + 1 := by omega
  have hold : (List.range ctl.top.toNat).map (Function.update ctl.ele ctl.top.toNat val) =
      (List.range ctl.top.toNat).map ctl.ele := by
    apply List.map_congr_left
    intro j hj
    exact Function.update_of_ne (Nat.ne_of_lt (List.mem_range.mp hj)) val ctl.ele
  rw [stklistPush, if_pos hroom, freePages, hsucc, List.range_succ, List.map_append, List.reverse_append, hold]
  simp [freePages]

theorem freePages_pop (htop : 0 < ctl.top) :
    freePages ctl = (stklistPop ctl).2 :: freePages (stklistPop ctl).1 := by
  obtain ⟨n, hn⟩ := Int.eq_succ_of_zero_lt htop
  have hpred : (ctl.top - 1).toNat = n := by omega
  have hnat : ctl.top.toNat = n + 1 := by omega
  rw [stklistPop, if_pos htop, freePages, freePages, hpred, hnat, List.range_succ, List.map_append, List.reverse_append]
  rfl

/-! ## What every call keeps -/

section Kept

variable {len : ℕ} {mapping : Mapping len} {rte_mem_virt2phy : ℕ → ℕ} {s : MemRun}

/-- The pages of the array are free or out, and the table of their physical addresses is as it was filled. -/
structure PagesKept (mapping : Mapping len) (rte_mem_virt2phy : ℕ → ℕ) (s : MemRun) : Prop where
  start : s.pages.ff_page_start = mapping.start
  finish : s.pages.ff_page_end = mapping.start + len
  top : 0 ≤ s.pages.ff_mpage_ctl.top
  size : s.pages.ff_mpage_ctl.size = (len / 4096 : ℕ)
  pooled : Pooled (arrayPages mapping.start len) (freePages s.pages.ff_mpage_ctl) s.handed
  phy : ∀ j < len / 4096, s.pages.ff_mpage_phy j = rte_mem_virt2phy (mapping.start + 4096 * j)

theorem nodup_arrayPages (start len : ℕ) : (arrayPages start len).Nodup :=
  List.nodup_range.map fun i j h => by omega

theorem mem_arrayPages {len : ℕ} : a ∈ arrayPages start len ↔ ∃ i < len / 4096, start + 4096 * i = a := by
  rw [arrayPages, List.mem_map]
  exact exists_congr fun i => and_congr_left fun _ => List.mem_range

theorem length_freePages (h : PagesKept mapping rte_mem_virt2phy s) :
    s.pages.ff_mpage_ctl.top + s.handed.length = (len / 4096 : ℕ) := by
  have hlength := h.pooled.length
  have htop := h.top
  rw [freePages, arrayPages, List.length_reverse, List.length_map, List.length_map, List.length_range,
    List.length_range] at hlength
  omega

/-- There is room for a page that is out. -/
theorem PagesKept.room (h : PagesKept mapping rte_mem_virt2phy s) (ha : a ∈ s.handed) :
    s.pages.ff_mpage_ctl.top < s.pages.ff_mpage_ctl.size := by
  have hlength := length_freePages h
  have hpos := List.length_pos_of_mem ha
  rw [h.size]
  omega

/-- The blocks of one page, when a block is out. -/
theorem handed_perm {n : ℕ} (hblock : (a, n) ∈ s.blocks) :
    s.handed.Perm (if n = 4096 then a :: MemRun.handed ⟨s.pages, s.blocks.erase (a, n)⟩
      else MemRun.handed ⟨s.pages, s.blocks.erase (a, n)⟩) := by
  have hperm := ((List.perm_cons_erase hblock).filter fun block => block.2 = 4096).map Prod.fst
  by_cases hn : n = 4096
  · rw [List.filter_cons_of_pos (by simpa using hn), List.map_cons] at hperm
    rwa [if_pos hn]
  · rw [List.filter_cons_of_neg (by simpa using hn)] at hperm
    rwa [if_neg hn]

theorem mem_freePages (htop : 0 < ctl.top) : (stklistPop ctl).2 ∈ freePages ctl := by
  rw [freePages_pop htop]
  exact List.mem_cons_self

/-- A page that is given out is not `NULL`. -/
theorem PagesKept.pop_ne_zero (h : PagesKept mapping rte_mem_virt2phy s) (htop : 0 < s.pages.ff_mpage_ctl.top) :
    (stklistPop s.pages.ff_mpage_ctl).2 ≠ 0 := by
  have hmem := h.pooled.mem_of_free (mem_freePages htop)
  obtain ⟨i, -, hi⟩ := mem_arrayPages.mp hmem
  have hpos := mapping.start_pos
  omega

theorem PagesKept.get (h : PagesKept mapping rte_mem_virt2phy s) (answer : ℕ) :
    PagesKept mapping rte_mem_virt2phy (memStep s (.mmap 4096 answer)) := by
  rw [memStep, ffMmap, if_pos rfl, MemPages.ffMemGetPage]
  rcases Int.lt_or_eq_of_le h.top with htop | htop
  · have hpooled := h.pooled
    rw [freePages_pop htop] at hpooled
    have hhanded : MemRun.handed ⟨s.pages, ((stklistPop s.pages.ff_mpage_ctl).2, 4096) :: s.blocks⟩ =
        (stklistPop s.pages.ff_mpage_ctl).2 :: s.handed := rfl
    dsimp only
    rw [if_neg (h.pop_ne_zero htop)]
    have hpop : (stklistPop s.pages.ff_mpage_ctl).1 =
        { s.pages.ff_mpage_ctl with top := s.pages.ff_mpage_ctl.top - 1 } := by rw [stklistPop, if_pos htop]
    refine ⟨h.start, h.finish, ?_, ?_, hhanded ▸ hpooled.take, h.phy⟩
    · rw [hpop]
      exact Int.le_sub_one_of_lt htop
    · rw [hpop]
      exact h.size
  · have hpop : stklistPop s.pages.ff_mpage_ctl = (s.pages.ff_mpage_ctl, 0) := by
      rw [stklistPop, if_neg (by omega)]
    rw [hpop]
    exact h

theorem PagesKept.free (h : PagesKept mapping rte_mem_virt2phy s) (hblock : (a, 4096) ∈ s.blocks) (answer : ℤ) :
    PagesKept mapping rte_mem_virt2phy (memStep s (.munmap a 4096 answer)) := by
  have hhanded := handed_perm hblock
  rw [if_pos rfl] at hhanded
  have hroom := h.room (hhanded.mem_iff.mpr List.mem_cons_self)
  have hpooled := h.pooled.give hhanded
  rw [← freePages_push h.top hroom] at hpooled
  have hpush : (stklistPush s.pages.ff_mpage_ctl a).1 =
      { s.pages.ff_mpage_ctl with
        ele := Function.update s.pages.ff_mpage_ctl.ele s.pages.ff_mpage_ctl.top.toNat a
        top := s.pages.ff_mpage_ctl.top + 1 } := by rw [stklistPush, if_pos hroom]
  rw [memStep, ffMunmap, if_pos rfl, MemPages.ffMemFreeAddr]
  refine ⟨h.start, h.finish, ?_, ?_, hpooled, h.phy⟩
  · rw [hpush]
    exact Int.le_add_one h.top
  · rw [hpush]
    exact h.size

/-- Every call keeps the pages. -/
theorem PagesKept.step (h : PagesKept mapping rte_mem_virt2phy s) {call : MemCall} (hcall : Unmaps s call) :
    PagesKept mapping rte_mem_virt2phy (memStep s call) := by
  cases call with
  | mmap n answer =>
    by_cases hn : n = 4096
    · rw [hn]
      exact h.get answer
    · -- another length is served by the host
      have hhanded : MemRun.handed ⟨s.pages, if answer = 0 then s.blocks else (answer, n) :: s.blocks⟩ = s.handed := by
        split
        · rfl
        · rw [MemRun.handed, List.filter_cons_of_neg (by simpa using hn)]
          rfl
      rw [memStep, ffMmap, if_neg hn]
      exact ⟨h.start, h.finish, h.top, h.size, hhanded ▸ h.pooled, h.phy⟩
  | munmap a n answer =>
    by_cases hn : n = 4096
    · rw [hn] at hcall ⊢
      exact h.free hcall answer
    · have hhanded := handed_perm hcall
      rw [if_neg hn] at hhanded
      rw [memStep, ffMunmap, if_neg hn]
      exact ⟨h.start, h.finish, h.top, h.size, h.pooled.perm_out hhanded, h.phy⟩

/-- The number of the page in which an address is. -/
theorem pageIndex_eq (h : PagesKept mapping rte_mem_virt2phy s) (hlen : len < 2 ^ 31) {off : ℕ} (hi : i < len / 4096)
    (hoff : off < 4096) :
    (((mapping.start + 4096 * i + off + 2 ^ 64 - s.pages.ff_page_start) % 2 ^ 64) >>> 12) % 2 ^ 32 = i := by
  have hfits := mapping.fits
  have hdiff : (mapping.start + 4096 * i + off + 2 ^ 64 - s.pages.ff_page_start) % 2 ^ 64 = 4096 * i + off := by
    rw [h.start]
    omega
  rw [hdiff, Nat.shiftRight_eq_div_pow]
  omega

theorem PagesKept.right (h : PagesKept mapping rte_mem_virt2phy s) (hlen : len < 2 ^ 31) :
    PagesRight rte_mem_virt2phy s := by
  have hpage : ∀ a ∈ s.handed, ∃ i < len / 4096, mapping.start + 4096 * i = a := fun a ha =>
    mem_arrayPages.mp (h.pooled.mem_of_out ha)
  refine ⟨h.pooled.nodup_out (nodup_arrayPages _ _), fun a ha => ?_, ?_, fun a ha => ?_, fun answer => ?_,
    fun a ha off hoff => ?_⟩
  · obtain ⟨i, hi, rfl⟩ := hpage a ha
    rw [h.start, h.finish]
    omega
  · rw [h.start, h.finish, Nat.add_sub_cancel_left]
    exact length_freePages h
  · rw [stklistPush, if_pos (h.room ha)]
  · rw [ffMmap, if_pos rfl, MemPages.ffMemGetPage]
    have htop := h.top
    constructor
    · intro hnull
      by_contra hfree
      exact h.pop_ne_zero (by omega) hnull
    · intro hfree
      rw [stklistPop, hfree]
      rfl
  · obtain ⟨i, hi, rfl⟩ := hpage a ha
    have hindex : (mapping.start + 4096 * i - s.pages.ff_page_start) / 4096 = i := by
      rw [h.start]
      omega
    have haligned := mapping.aligned
    have hoffset : (mapping.start + 4096 * i + off) % 4096 = off := by omega
    have hsize : (s.pages.ff_mpage_ctl.size % 2 ^ 32).toNat = len / 4096 := by
      rw [h.size]
      omega
    have hin : ¬ i ≥ len / 4096 := Nat.not_le.mpr hi
    rw [hindex, MemPages.ffMemVirt2phy, pageIndex_eq h hlen hi hoff, hsize, hoffset]
    exact ⟨if_neg hin, h.phy i hi⟩

end Kept

/-! ## Runs -/

/-- After `ff_mmap_init` every page is free. -/
theorem ffMmapInit_kept {mapping : Mapping (bsdMemsz mem_size)} {locked : Bool} {rte_mem_virt2phy : ℕ → ℕ}
    {p : MemPages} (h : ffMmapInit mem_size (some mapping) locked rte_mem_virt2phy = some p) :
    PagesKept mapping rte_mem_virt2phy ⟨p, []⟩ := by
  have hpos := mapping.len_pos
  have hfits := mapping.fits
  have hlen := bsdMemsz_lt mem_size (by omega)
  have hpages : (bsdMemsz mem_size >>> 12) % 2 ^ 32 = bsdMemsz mem_size / 4096 := by
    rw [Nat.shiftRight_eq_div_pow]
    omega
  have hint : (BitVec.ofNat 32 (bsdMemsz mem_size / 4096)).toInt = (bsdMemsz mem_size / 4096 : ℕ) := by
    rw [BitVec.toInt_eq_toNat_of_lt (by rw [BitVec.toNat_ofNat]; omega), BitVec.toNat_ofNat]
    omega
  simp only [ffMmapInit, hpages, hint] at h
  split at h
  · obtain ⟨⟨ctl, phy⟩, hinit, rfl⟩ := Option.map_eq_some_iff.mp h
    rw [stklistInit, if_neg (by omega)] at hinit
    obtain ⟨hfilled, hsize⟩ := initPages_filled ⟨rfl, fun j hj => absurd hj (Nat.not_lt_zero j),
      fun j hj => absurd hj (Nat.not_lt_zero j)⟩ (by rw [Nat.zero_add]) (by omega) (by omega) hinit
    rw [Nat.zero_add] at hfilled
    have hfree : freePages ctl = (arrayPages mapping.start (bsdMemsz mem_size)).reverse := by
      rw [freePages, hfilled.top, Int.toNat_natCast, arrayPages]
      exact congrArg List.reverse (List.map_congr_left fun j hj => hfilled.ele j (List.mem_range.mp hj))
    refine ⟨rfl, Nat.mod_eq_of_lt (by omega), ?_, hsize, ?_, hfilled.phy⟩
    · rw [hfilled.top]
      exact Int.natCast_nonneg _
    · rw [hfree]
      simp [Pooled, MemRun.handed, List.reverse_perm]
  · exact absurd h (Option.some_ne_none _).symm

/-- The pages are kept in every state that is reached by calls that unmap a block once, with the length with which it was
mapped. -/
theorem kept_of_calls {answer : Option (Mapping (bsdMemsz mem_size))} {locked : Bool} {rte_mem_virt2phy : ℕ → ℕ}
    {p : MemPages} (hinit : ffMmapInit mem_size answer locked rte_mem_virt2phy = some p) {calls : List MemCall}
    (hcalls : AllSteps memStep Unmaps ⟨p, []⟩ calls) :
    ∃ mapping : Mapping (bsdMemsz mem_size), PagesKept mapping rte_mem_virt2phy (calls.foldl memStep ⟨p, []⟩) := by
  cases answer with
  | none => exact absurd hinit (Option.some_ne_none p).symm
  | some mapping => exact ⟨mapping, hcalls.foldl (fun s call h hcall => h.step hcall) (ffMmapInit_kept hinit)⟩

/-- After `ff_mmap_init`, whatever the size of the array, the allocator is right in every such state. -/
theorem page_allocator_right {mem_size : BitVec 32} {answer : Option (Mapping (bsdMemsz mem_size))} {locked : Bool}
    {rte_mem_virt2phy : ℕ → ℕ} {p : MemPages} (hinit : ffMmapInit mem_size answer locked rte_mem_virt2phy = some p)
    {calls : List MemCall} (hcalls : AllSteps memStep Unmaps ⟨p, []⟩ calls) :
    PagesRight rte_mem_virt2phy (calls.foldl memStep ⟨p, []⟩) := by
  obtain ⟨mapping, hkept⟩ := kept_of_calls hinit hcalls
  have hlen := bsdMemsz_lt mem_size (by have := mapping.fits; omega)
  exact hkept.right hlen.1

theorem initPages_isSome {rte_mem_virt2phy : ℕ → ℕ} (hphy : ∀ a, rte_mem_virt2phy a ≠ RTE_BAD_IOVA) (start n i : ℕ)
    (ctl : StackList) (phy : ℕ → ℕ) : ∃ r, initPages start rte_mem_virt2phy n i ctl phy = some r := by
  induction n generalizing i ctl phy with
  | zero => exact ⟨_, rfl⟩
  | succ n ih =>
    simp only [initPages, Function.update_self, hphy, if_false]
    exact ih _ _ _

/-- `ff_mmap_init` does not panic when the host maps and locks the array and knows its physical addresses. -/
theorem ffMmapInit_isSome (mapping : Mapping (bsdMemsz mem_size)) (rte_mem_virt2phy : ℕ → ℕ)
    (hphy : ∀ a, rte_mem_virt2phy a ≠ RTE_BAD_IOVA) :
    ∃ p, ffMmapInit mem_size (some mapping) true rte_mem_virt2phy = some p := by
  obtain ⟨r, hr⟩ := initPages_isSome hphy mapping.start ((bsdMemsz mem_size >>> 12) % 2 ^ 32) 0
    (stklistInit StackList.zero (BitVec.ofNat 32 ((bsdMemsz mem_size >>> 12) % 2 ^ 32)).toInt).1 fun _ => 0
  simp only [ffMmapInit, if_true, hr, Option.map_some]
  exact ⟨_, rfl⟩

/-- An array of 1 MiB: a page is mapped and unmapped. -/
theorem page_allocator_one_page :
    ∃ p, ffMmapInit 1 (some ⟨0x7f0000000000, by decide, by decide, by decide, by decide⟩) true (· % 2 ^ 40) = some p ∧
      PagesRight (· % 2 ^ 40)
        ([.mmap 4096 0, .munmap (ffMmap p 4096 0).2 4096 0].foldl memStep ⟨p, []⟩) := by
  obtain ⟨p, hp⟩ := ffMmapInit_isSome
    (⟨0x7f0000000000, by decide, by decide, by decide, by decide⟩ : Mapping (bsdMemsz 1)) (· % 2 ^ 40) (fun a => by rw [RTE_BAD_IOVA]; omega)
  refine ⟨p, hp, page_allocator_right hp ⟨trivial, ?_, trivial⟩⟩
  have hkept := ffMmapInit_kept hp
  have hfull : p.ff_mpage_ctl.top = 256 := by
    have hsize : bsdMemsz 1 / 4096 = 256 := by decide
    have htop := length_freePages hkept
    rw [hsize] at htop
    simpa [MemRun.handed] using htop
  have hpage := hkept.pop_ne_zero (by rw [hfull]; decide)
  change _ ∈ if (stklistPop p.ff_mpage_ctl).2 = 0 then [] else [((stklistPop p.ff_mpage_ctl).2, 4096)]
  rw [if_neg hpage]
  exact List.mem_singleton_self _

end FStack.Analysis
