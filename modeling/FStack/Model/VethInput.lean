import Mathlib.Algebra.Ring.Nat
import Mathlib.Logic.Function.Basic

/-!
# Handing a received chain to the stack

`ff_veth_input` (`lib/ff_dpdk_if.c`) wraps each segment of a received `rte_mbuf`
chain in a BSD mbuf (`ff_mbuf_gethdr` for the first, `ff_mbuf_get` for the others,
`lib/ff_veth.c`) and passes the BSD chain on.  A wrapped segment belongs to its BSD
mbuf: freeing that mbuf calls `ff_mbuf_ext_free`, which gives the one segment back.

The segments' `next` pointers are state, because `rte_pktmbuf_free` follows them and
`rte_pktmbuf_prefree_seg` clears the pointer of every segment it releases.
-/

set_option autoImplicit false

namespace FStack.Model

/-- The received segments as the pool sees them: where each `next` pointer leads, and
the segments given back to their pool, in order.  A received segment has reference
count one, and a segment in the pool has it too, so a second free gives it back
again. -/
structure MbufHeap where
  next : ℕ → Option ℕ
  returned : List ℕ

/-- `rte_pktmbuf_free_seg`: give the segment back; its `next` becomes `NULL`.
SOURCE: dpdk/lib/mbuf/rte_mbuf.h:1346-1404 -/
def rtePktmbufFreeSeg (h : MbufHeap) (m : ℕ) : MbufHeap :=
  { next := Function.update h.next m none, returned := h.returned ++ [m] }

/-- `rte_pktmbuf_free`: follow `next`, read before the segment is released, for at most
`fuel` segments.
SOURCE: dpdk/lib/mbuf/rte_mbuf.h:1415-1427 -/
def rtePktmbufFree : ℕ → MbufHeap → Option ℕ → MbufHeap
  | 0, h, _ => h
  | _ + 1, h, none => h
  | fuel + 1, h, some m => rtePktmbufFree fuel (rtePktmbufFreeSeg h m) (h.next m)

/-- One segment of a received packet. -/
structure RteSeg where
  id : ℕ
  data_len : ℕ
deriving DecidableEq, Repr

/-- A packet as a driver delivers it: its segments are distinct buffers, and `pkt_len` is
the sum of their lengths. -/
structure RxPacket where
  head : RteSeg
  rest : List RteSeg
  pkt_len : ℕ
  csum_bad : Bool
  vlan_tci : Option ℕ
  timestamp : Option ℕ
  nodup : ((head :: rest).map RteSeg.id).Nodup
  pkt_len_eq : pkt_len = ((head :: rest).map RteSeg.data_len).sum

namespace RxPacket

def segs (p : RxPacket) : List RteSeg := p.head :: p.rest

end RxPacket

/-- The `next` pointers of a chain of segments. -/
def linkChain : List ℕ → ℕ → Option ℕ
  | [], _ => none
  | [_], _ => none
  | a :: b :: l, m => if m = a then some b else linkChain (b :: l) m

/-- A BSD mbuf made by `ff_mbuf_gethdr` or `ff_mbuf_get`: the segment in `ext_arg1` and
`m_len`. -/
structure BsdMbuf where
  ext_arg1 : ℕ
  m_len : ℕ
deriving DecidableEq, Repr

/-- The packet header fields that `ff_veth_input` sets. -/
structure PktHdr where
  len : ℕ
  csum_valid : Bool
  ether_vtag : Option ℕ
  rcv_tstmp : Option ℕ
deriving DecidableEq, Repr

/-- `ff_mbuf_free` on a chain of wrapped segments: `m_freem` runs `ff_mbuf_ext_free` on
each.
SOURCE: lib/ff_veth.c:294-304, lib/ff_dpdk_if.c:2604-2608 -/
def ffMbufFree (h : MbufHeap) (chain : List BsdMbuf) : MbufHeap :=
  chain.foldl (fun h b => rtePktmbufFreeSeg h b.ext_arg1) h

/-- What a call of `ff_veth_input` leaves behind: the segments, and what
`ff_veth_process_packet` was called with. -/
structure VethResult where
  heap : MbufHeap
  input : Option (PktHdr × List BsdMbuf)

/-- The `while` loop of `ff_veth_input`: wrap the segments that follow, the `k`-th of them
with the `k`-th allocation; on a failure free the BSD chain and then the received packet.
SOURCE: lib/ff_dpdk_if.c:1588-1604 -/
def ffVethInputLoop (alloc : ℕ → Bool) (p : RxPacket) (h : MbufHeap) (hdr : PktHdr) :
    ℕ → List BsdMbuf → List RteSeg → VethResult
  | _, chain, [] => ⟨h, some (hdr, chain)⟩
  | k, chain, s :: rest =>
    if alloc k then ffVethInputLoop alloc p h hdr (k + 1) (chain ++ [⟨s.id, s.data_len⟩]) rest
    else ⟨rtePktmbufFree p.segs.length (ffMbufFree h chain) (some p.head.id), none⟩

/-- `ff_veth_input`.  `alloc 0` says whether `ff_mbuf_gethdr` gets its mbuf, `alloc k` whether
the `k`-th call of `ff_mbuf_get` does.  `ff_mbuf_gethdr` takes `pkt_len` as a `uint16_t`.
SOURCE: lib/ff_dpdk_if.c:1557-1605, lib/ff_veth.c:448-493 -/
def ffVethInput (rx_csum : Bool) (alloc : ℕ → Bool) (p : RxPacket) : VethResult :=
  let h : MbufHeap := ⟨linkChain (p.segs.map RteSeg.id), []⟩
  if rx_csum && p.csum_bad then ⟨rtePktmbufFree p.segs.length h (some p.head.id), none⟩
  else if alloc 0 then
    let hdr : PktHdr := ⟨p.pkt_len % 65536, rx_csum, p.vlan_tci, p.timestamp⟩
    ffVethInputLoop alloc p h hdr 1 [⟨p.head.id, p.head.data_len⟩] p.rest
  else ⟨rtePktmbufFree p.segs.length h (some p.head.id), none⟩

end FStack.Model
