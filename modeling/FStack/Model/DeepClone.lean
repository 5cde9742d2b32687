import FStack.Model.PacketFilter
import FStack.Prelude.ByteMemory

/-!
# Cloning a chain of mbufs

`pktmbuf_deep_clone` (`lib/ff_dpdk_if.c`), on mbufs in a heap.  `alloc k` is what the `k`-th call of
`rte_pktmbuf_alloc` answers.

On failure the clone is given to `rte_pktmbuf_free`, which looks at the flags of each segment: one that
is marked as attached is detached first.  A segment of the clone is never attached to anything.  With
`RTE_MBUF_F_EXTERNAL` the code follows a pointer that nobody has set, which is `none`; with
`RTE_MBUF_F_INDIRECT` it takes the segment for its own buffer and frees it twice.
-/

set_option autoImplicit false

namespace FStack.Model

open FStack.Prelude

def RTE_MBUF_F_EXTERNAL : BitVec 64 := 1#64 <<< 61
def RTE_MBUF_F_INDIRECT : BitVec 64 := 1#64 <<< 62

/-- The fields of `struct rte_mbuf` that are copied, and the bytes at the data pointer. -/
structure ChainMbuf where
  next : Option ℕ
  nb_segs : ℕ
  pkt_len : ℕ
  data : Memory
  data_len : ℕ
  port : ℕ
  vlan_tci : ℕ
  vlan_tci_outer : ℕ
  tx_offload : ℕ
  hash : ℕ
  ol_flags : BitVec 64
  packet_type : ℕ

/-- The heap, the calls of `rte_pktmbuf_alloc`, what they have returned, and whether a copy was longer
than a data room. -/
structure CloneState where
  heap : ℕ → ChainMbuf
  calls : ℕ
  allocated : List ℕ
  overrun : Bool

/-- `rte_pktmbuf_reset`; the hash and the data room are left as they are.
SOURCE: dpdk/lib/mbuf/rte_mbuf.h:876-892 -/
def ChainMbuf.reset (m : ChainMbuf) : ChainMbuf :=
  { m with
    next := none, nb_segs := 1, pkt_len := 0, data_len := 0, port := 65535, vlan_tci := 0
    vlan_tci_outer := 0, tx_offload := 0, ol_flags := 0, packet_type := 0 }

/-- `rte_pktmbuf_alloc`. -/
def allocMbuf (alloc : ℕ → Option ℕ) (st : CloneState) : CloneState × Option ℕ :=
  match alloc st.calls with
  | none => ({ st with calls := st.calls + 1 }, none)
  | some c =>
    ({ st with
      heap := Function.update st.heap c (st.heap c).reset
      calls := st.calls + 1
      allocated := st.allocated ++ [c] }, some c)

/-- `pktmbuf_deep_attach`, of a segment with `room` bytes to one of the chain.
SOURCE: lib/ff_dpdk_if.c:1659-1679 -/
def deepAttach (room : ℕ) (st : CloneState) (mi m : ℕ) : CloneState :=
  let src := st.heap m
  { st with
    heap := Function.update st.heap mi
      { st.heap mi with
        data_len := src.data_len
        data := writeAt (st.heap mi).data 0 (readAt src.data 0 src.data_len)
        port := src.port
        vlan_tci := src.vlan_tci
        vlan_tci_outer := src.vlan_tci_outer
        tx_offload := src.tx_offload
        hash := src.hash
        ol_flags := src.ol_flags
        packet_type := src.packet_type }
    overrun := st.overrun || decide (room < src.data_len) }

/-- `*prev = m`, for the field `next` of an mbuf. -/
def setNext (st : CloneState) (prev : ℕ) (m : Option ℕ) : CloneState :=
  { st with heap := Function.update st.heap prev { st.heap prev with next := m } }

/-- What the loop leaves: `prev`, `nseg`, and whether `mi` is not `NULL`. -/
structure CloneLoop where
  st : CloneState
  prev : ℕ
  nseg : ℕ
  ok : Bool

/-- The loop, which runs once for each segment of the chain; `none` when there are more than `fuel` of
them.
SOURCE: lib/ff_dpdk_if.c:1696-1702 -/
def cloneLoop (alloc : ℕ → Option ℕ) (room : ℕ) :
    ℕ → CloneState → ℕ → ℕ → ℕ → ℕ → Option CloneLoop
  | 0, _, _, _, _, _ => none
  | fuel + 1, st, mi, md, prev, nseg =>
    let nseg := (nseg + 1) % 256
    let st := deepAttach room st mi md
    let st := setNext st prev (some mi)
    match (st.heap md).next with
    | none => some ⟨st, mi, nseg, true⟩
    | some md =>
      match allocMbuf alloc st with
      | (st, none) => some ⟨st, mi, nseg, false⟩
      | (st, some mi') => cloneLoop alloc room fuel st mi' md mi nseg

/-- The mbufs from one on, along their links, at most `n` of them. -/
def mbufsFrom (heap : ℕ → ChainMbuf) : ℕ → Option ℕ → List ℕ
  | 0, _ => []
  | _ + 1, none => []
  | n + 1, some m => m :: mbufsFrom heap n (heap m).next

/-- `rte_pktmbuf_free_seg`, of a segment that is attached to nothing.
SOURCE: dpdk/lib/mbuf/rte_mbuf.h:1205-1235, dpdk/lib/mbuf/rte_mbuf.h:1255-1292,
dpdk/lib/mbuf/rte_mbuf.h:1347-1404 -/
def freeSeg (heap : ℕ → ChainMbuf) (m : ℕ) : Option (List ℕ) :=
  if (heap m).ol_flags &&& RTE_MBUF_F_EXTERNAL ≠ 0 then none
  else if (heap m).ol_flags &&& RTE_MBUF_F_INDIRECT ≠ 0 then some [m, m]
  else some [m]

/-- `rte_pktmbuf_free`: what goes back to the pool. -/
def freeSegs (heap : ℕ → ChainMbuf) : List ℕ → Option (List ℕ)
  | [] => some []
  | m :: ms =>
    match freeSeg heap m, freeSegs heap ms with
    | some xs, some ys => some (xs ++ ys)
    | _, _ => none

/-- The clone, if there is one, and what has been freed. -/
structure CloneResult where
  st : CloneState
  clone : Option ℕ
  freed : Option (List ℕ)

/-- `pktmbuf_deep_clone`.
SOURCE: lib/ff_dpdk_if.c:1681-1717 -/
def pktmbufDeepCloneChain (alloc : ℕ → Option ℕ) (room fuel : ℕ) (heap : ℕ → ChainMbuf) (md : ℕ) :
    Option CloneResult :=
  match allocMbuf alloc ⟨heap, 0, [], false⟩ with
  | (st, none) => some ⟨st, none, some []⟩
  | (st, some mc) =>
    match cloneLoop alloc room fuel st mc md mc 0 with
    | none => none
    | some ⟨st, prev, nseg, ok⟩ =>
      let st := setNext st prev none
      let st := { st with
        heap := Function.update st.heap mc
          { st.heap mc with nb_segs := nseg, pkt_len := (heap md).pkt_len } }
      if ok then some ⟨st, some mc, some []⟩
      else some ⟨st, none, freeSegs st.heap (mbufsFrom st.heap st.allocated.length (some mc))⟩

end FStack.Model
