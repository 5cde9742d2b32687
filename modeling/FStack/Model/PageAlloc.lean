import FStack.Prelude.ByteMemory
import Mathlib.Algebra.Order.Ring.Int

/-!
# The page allocator

In the `FF_USE_PAGE_ARRAY` build the pages of the stack come out of one array, which `ff_mmap_init` maps, locks and
translates page by page (`lib/ff_memory.c`).  The free pages are kept in a stack of addresses, `StackList_t`.  `ff_mmap`
and `ff_munmap` (`lib/ff_host_interface.c`) serve a length of 4096 from the array, and any other length from the host.

An address is a number below 2^64, and 0 is `NULL`.  What the host answers is a parameter.
-/

set_option autoImplicit false

namespace FStack.Model

def RTE_BAD_IOVA : ℕ := 2 ^ 64 - 1

/-! ## The stack of addresses -/

/-- `StackList_t`. -/
structure StackList where
  ele : ℕ → ℕ
  size : ℤ
  top : ℤ

/-- `ff_mpage_ctl` at the start. -/
def StackList.zero : StackList := ⟨fun _ => 0, 0, 0⟩

/-- SOURCE: lib/ff_memory.c:108-122 -/
def stklistInit (p : StackList) (size : ℤ) : StackList × ℤ :=
  if size ≤ 0 then (p, -1) else (⟨fun _ => 0, size, 0⟩, 0)

/-- SOURCE: lib/ff_memory.c:124-136 -/
def stklistPop (p : StackList) : StackList × ℕ :=
  if p.top > 0 then ({ p with top := p.top - 1 }, p.ele (p.top - 1).toNat) else (p, 0)

/-- SOURCE: lib/ff_memory.c:140-151 -/
def stklistPush (p : StackList) (val : ℕ) : StackList × ℤ :=
  if p.top < p.size then ({ p with ele := Function.update p.ele p.top.toNat val, top := p.top + 1 }, 0) else (p, -1)

/-! ## The array -/

/-- `ff_page_start`, `ff_page_end`, `ff_mpage_ctl` and `ff_mpage_phy`. -/
structure MemPages where
  ff_page_start : ℕ
  ff_page_end : ℕ
  ff_mpage_ctl : StackList
  ff_mpage_phy : ℕ → ℕ

/-- The length of the array: an `int` is shifted, and then converted to 64 bits.
SOURCE: lib/ff_memory.c:234 -/
def bsdMemsz (mem_size : BitVec 32) : ℕ := ((mem_size <<< 20).signExtend 64).toNat

/-- What `mmap` returns when it maps `len` bytes: the address is that of a page, and the bytes are in the user's half of
the address space.  A length of 0 is refused. -/
structure Mapping (len : ℕ) where
  start : ℕ
  start_pos : 0 < start
  aligned : start % 4096 = 0
  len_pos : 0 < len
  fits : start + len ≤ 2 ^ 63

/-- `ff_page_start + PAGE_SIZE*i`, where the product is an `int`.
SOURCE: lib/ff_memory.c:260 -/
def pageAddr (start i : ℕ) : ℕ := (start + ((BitVec.ofNat 32 (4096 * i)).signExtend 64).toNat) % 2 ^ 64

/-- The loop of `ff_mmap_init` from page `i` on, with `n` pages to go; `none` when it panics.
SOURCE: lib/ff_memory.c:259-269 -/
def initPages (start : ℕ) (rte_mem_virt2phy : ℕ → ℕ) : ℕ → ℕ → StackList → (ℕ → ℕ) → Option (StackList × (ℕ → ℕ))
  | 0, _, ctl, phy => some (ctl, phy)
  | n + 1, i, ctl, phy =>
    let virt_addr := pageAddr start i
    let ctl := (stklistPush ctl virt_addr).1
    let phy := Function.update phy i (rte_mem_virt2phy virt_addr)
    if phy i = RTE_BAD_IOVA then none else initPages start rte_mem_virt2phy n (i + 1) ctl phy

/-- `ff_mmap_init`; `none` when it panics.  `answer` is what `mmap` returns, and `locked` whether `mlock` succeeds.
SOURCE: lib/ff_memory.c:228-274 -/
def ffMmapInit (mem_size : BitVec 32) (answer : Option (Mapping (bsdMemsz mem_size))) (locked : Bool)
    (rte_mem_virt2phy : ℕ → ℕ) : Option MemPages :=
  match answer with
  | none => none
  | some mapping =>
    if locked then
      let bsd_pagesz := (bsdMemsz mem_size >>> 12) % 2 ^ 32
      let ctl := (stklistInit StackList.zero (BitVec.ofNat 32 bsd_pagesz).toInt).1
      (initPages mapping.start rte_mem_virt2phy bsd_pagesz 0 ctl fun _ => 0).map fun (ctl, phy) =>
        ⟨mapping.start, (mapping.start + bsdMemsz mem_size) % 2 ^ 64, ctl, phy⟩
    else none

/-- SOURCE: lib/ff_memory.c:277-280 -/
def MemPages.ffChkVma (p : MemPages) (virtaddr : ℕ) : Bool := p.ff_page_start < virtaddr && virtaddr < p.ff_page_end

/-- `ff_mem_virt2phy`; `none` when it panics.
SOURCE: lib/ff_memory.c:285-298 -/
def MemPages.ffMemVirt2phy (p : MemPages) (virtaddr : ℕ) : Option ℕ :=
  let pages := (((virtaddr + 2 ^ 64 - p.ff_page_start) % 2 ^ 64) >>> 12) % 2 ^ 32
  if pages ≥ (p.ff_mpage_ctl.size % 2 ^ 32).toNat then none
  else some ((p.ff_mpage_phy pages + virtaddr % 4096) % 2 ^ 64)

/-- SOURCE: lib/ff_memory.c:300-303 -/
def MemPages.ffMemGetPage (p : MemPages) : MemPages × ℕ :=
  let r := stklistPop p.ff_mpage_ctl
  ({ p with ff_mpage_ctl := r.1 }, r.2)

/-- SOURCE: lib/ff_memory.c:305-309 -/
def MemPages.ffMemFreeAddr (p : MemPages) (addr : ℕ) : MemPages × ℤ :=
  ({ p with ff_mpage_ctl := (stklistPush p.ff_mpage_ctl addr).1 }, 0)

/-! ## The interface of the host -/

/-- `ff_mmap`.  `answer` is what `mmap` returns for a length that is not 4096; when it fails, the process exits.
SOURCE: lib/ff_host_interface.c:68-101 -/
def ffMmap (p : MemPages) (len answer : ℕ) : MemPages × ℕ :=
  if len = 4096 then p.ffMemGetPage else (p, answer)

/-- `ff_munmap`.  `answer` is what `munmap` returns.
SOURCE: lib/ff_host_interface.c:103-114 -/
def ffMunmap (p : MemPages) (addr len : ℕ) (answer : ℤ) : MemPages × ℤ :=
  if len = 4096 then p.ffMemFreeAddr addr else (p, answer)

/-- What the stack asks for. -/
inductive MemCall where
  | mmap (len answer : ℕ)
  | munmap (addr len : ℕ) (answer : ℤ)

/-- The array, and the blocks that were returned by `ff_mmap` and have not been unmapped since, with their lengths. -/
structure MemRun where
  pages : MemPages
  blocks : List (ℕ × ℕ)

/-- The blocks of one page. -/
def MemRun.handed (s : MemRun) : List ℕ := (s.blocks.filter fun block => block.2 = 4096).map Prod.fst

def memStep (s : MemRun) : MemCall → MemRun
  | .mmap len answer =>
    let r := ffMmap s.pages len answer
    ⟨r.1, if r.2 = 0 then s.blocks else (r.2, len) :: s.blocks⟩
  | .munmap addr len answer => ⟨(ffMunmap s.pages addr len answer).1, s.blocks.erase (addr, len)⟩

/-- A block is unmapped once, with the length with which it was mapped. -/
def Unmaps (s : MemRun) : MemCall → Prop
  | .mmap _ _ => True
  | .munmap addr len _ => (addr, len) ∈ s.blocks

end FStack.Model

/-!
## Transmission from the page array

In the `FF_USE_PAGE_ARRAY` build `ff_if_send_onepkt` makes an `rte_mbuf` chain that refers to the data of a packet of
the stack instead of copying it (`lib/ff_memory.c`).  When the data of the packet's first mbuf is in the page array, each
mbuf of the packet gets a segment whose physical address comes from the table of the pages (`ff_bsd_to_rte`).  When it is
not, and the first mbuf wraps a received `rte_mbuf`, that `rte_mbuf` is cloned (`ff_extcl_to_rte`).  Otherwise the packet
is dropped.

An `rte_mbuf` is named by the call of `rte_pktmbuf_alloc` that returned it, and the `k`-th call succeeds if `alloc k`.
What was allocated and freed is kept in logs.
-/

namespace FStack.Model

open FStack.Prelude

/-- Where the data of an `rte_mbuf` is. -/
structure SegData where
  buf_addr : ℕ
  buf_iova : ℕ
  data_off : ℕ
  data_len : ℕ

def SegData.bytes (mem : ℕ → UInt8) (seg : SegData) : List UInt8 :=
  readAt mem (seg.buf_addr + seg.data_off) seg.data_len

/-- An `rte_mbuf` chain: the fields of its head, and its segments with their names. -/
structure RteChain where
  pkt_len : ℕ
  nb_segs : ℕ
  segs : List (ℕ × SegData)

def RteChain.bytes (mem : ℕ → UInt8) (head : RteChain) : List UInt8 :=
  head.segs.flatMap fun seg => seg.2.bytes mem

/-- An mbuf of the stack.  `extcl` is what `ff_rte_frm_extcl` returns for it: the received `rte_mbuf` that it wraps.
SOURCE: lib/ff_veth.c:1189-1199 -/
structure BsdBuf where
  m_data : ℕ
  m_len : ℕ
  extcl : Option RteChain

/-- A packet of the stack, with the length that is passed with it. -/
structure PagePacket where
  id : ℕ
  first : BsdBuf
  next : List BsdBuf
  total : ℕ
  total_eq : ((first :: next).map BsdBuf.m_len).sum = total
  total_lt : total < 2 ^ 31

def PagePacket.bufs (m : PagePacket) : List BsdBuf := m.first :: m.next

def PagePacket.bytes (mem : ℕ → UInt8) (m : PagePacket) : List UInt8 :=
  m.bufs.flatMap fun buf => readAt mem buf.m_data buf.m_len

/-- The table of a port, and the logs: how often an `rte_mbuf` was asked for, which ones were allocated and freed, and
which packets of the stack were freed. -/
structure PageTx where
  len : ℕ
  m_table : ℕ → Option RteChain
  bsd_m_table : ℕ → Option ℕ
  asked : ℕ
  allocated : List ℕ
  freed : List ℕ
  bsdFreed : List ℕ

/-- `rte_pktmbuf_alloc`. -/
def PageTx.alloc (alloc : ℕ → Bool) (st : PageTx) : Option ℕ × PageTx :=
  if alloc st.asked then (some st.asked, { st with asked := st.asked + 1, allocated := st.allocated ++ [st.asked] })
  else (none, { st with asked := st.asked + 1 })

/-- `rte_pktmbuf_free`, for a chain with these segments. -/
def PageTx.free (st : PageTx) (segs : List (ℕ × SegData)) : PageTx :=
  { st with freed := st.freed ++ segs.map Prod.fst }

/-- `ff_mbuf_free`. -/
def PageTx.freeBsd (st : PageTx) (m : PagePacket) : PageTx := { st with bsdFreed := st.bsdFreed ++ [m.id] }

/-- The loop of `ff_bsd_to_rte` and of `rte_pktmbuf_clone`: an `rte_mbuf` is allocated for each item and filled from it.
When there is none, the segments made so far are freed.  The result is `none` when the process panics.
SOURCE: lib/ff_memory.c:407-435, dpdk/lib/mbuf/rte_mbuf.c:522-547 -/
def makeSegs {α : Type} (alloc : ℕ → Bool) (fill : α → Option SegData) :
    List α → List (ℕ × SegData) → PageTx → Option (Option (List (ℕ × SegData)) × PageTx)
  | [], done, st => some (some done, st)
  | a :: as, done, st =>
    let r := st.alloc alloc
    match r.1 with
    | none => some (none, r.2.free done)
    | some id =>
      match fill a with
      | none => none
      | some seg => makeSegs alloc fill as (done ++ [(id, seg)]) r.2

/-- `rte_pktmbuf_clone`.
SOURCE: dpdk/lib/mbuf/rte_mbuf.c:515-551, dpdk/lib/mbuf/rte_mbuf.h:1165-1197 -/
def rtePktmbufClone (alloc : ℕ → Bool) (md : RteChain) (st : PageTx) : Option (Option RteChain × PageTx) :=
  (makeSegs alloc (fun seg : ℕ × SegData => some seg.2) md.segs [] st).map fun (segs, st) =>
    (segs.map fun segs => ⟨md.pkt_len, segs.length % 2 ^ 16, segs⟩, st)

/-- `ff_extcl_to_rte`.
SOURCE: lib/ff_memory.c:379-395 -/
def ffExtclClone (alloc : ℕ → Bool) (m : PagePacket) (st : PageTx) : Option (Option RteChain × PageTx) :=
  match m.first.extcl with
  | none => some (none, st)
  | some src => rtePktmbufClone alloc src st

/-- The segment of an mbuf; `none` when `ff_mem_virt2phy` panics.
SOURCE: lib/ff_memory.c:423-427 -/
def MemPages.segOf (p : MemPages) (buf : BsdBuf) : Option SegData :=
  (p.ffMemVirt2phy buf.m_data).map fun iova => ⟨buf.m_data, iova, 0, buf.m_len % 2 ^ 16⟩

/-- SOURCE: lib/ff_memory.c:398-438 -/
def MemPages.ffBsdToRte (p : MemPages) (alloc : ℕ → Bool) (m : PagePacket) (st : PageTx) :
    Option (Option RteChain × PageTx) :=
  (makeSegs alloc p.segOf m.bufs [] st).map fun (segs, st) =>
    (segs.map fun segs => ⟨m.total % 2 ^ 32, segs.length % 2 ^ 16, segs⟩, st)

/-- `ff_if_send_onepkt`: what it returns, and the tables after it; `none` when the process panics.
SOURCE: lib/ff_memory.c:440-503 -/
def MemPages.ffIfSendOnepkt (p : MemPages) (alloc : ℕ → Bool) (m : PagePacket) (st : PageTx) : Option (ℕ × PageTx) :=
  let made := if p.ffChkVma m.first.m_data then p.ffBsdToRte alloc m st else ffExtclClone alloc m st
  made.map fun (head, st) =>
    match head with
    | none => (0, st.freeBsd m)
    | some head =>
      (st.len + 1,
        { st with
          m_table := Function.update st.m_table st.len (some head)
          bsd_m_table := Function.update st.bsd_m_table st.len (some m.id) })

end FStack.Model
