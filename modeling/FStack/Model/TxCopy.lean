import FStack.Model.Offload
import FStack.Model.Transmit
import FStack.Prelude.Cursor

/-!
# Transmission by copy

`ff_dpdk_if_send` in the build without the page array, and `ff_dpdk_raw_packet_send`
(`lib/ff_dpdk_if.c`).  A packet is copied into segments of up to `RTE_MBUF_DEFAULT_DATAROOM` bytes,
which are allocated one after the other and linked.

A segment is followed by its number: the first that is allocated has number 0.  `alloc k` says
whether the `k`-th call of `rte_pktmbuf_alloc` succeeds, and `fresh k` is what its data room holds
then.  What has been freed and queued is kept in logs.
-/

set_option autoImplicit false

namespace FStack.Model

open FStack.Prelude

/-- One segment. -/
structure TxSeg extends HeadMbuf where
  data_len : ℕ
  next : Option ℕ

/-- `rte_pktmbuf_alloc`: everything is reset but the data room. -/
def TxSeg.reset (data : Memory) : TxSeg :=
  { ol_flags := 0, l2_len := 0, l3_len := 0, l4_len := 0, tso_segsz := 0, data := data
    data_len := 0, next := none }

/-- The segments, the fields of the head for the whole packet, and the logs. -/
structure TxSend where
  segs : ℕ → TxSeg
  /-- how many segments have been allocated -/
  allocated : ℕ
  pkt_len : ℕ
  nb_segs : ℕ
  /-- the segments given to `rte_pktmbuf_free` -/
  freed : List ℕ
  /-- how often `ff_mbuf_free` has been called for the packet -/
  bsdFreed : ℕ
  tx_dropped : ℕ
  /-- the packets given to `send_single_packet`, by their heads -/
  queued : List ℕ

def TxSend.start : TxSend :=
  { segs := fun _ => TxSeg.reset fun _ => 0, allocated := 0, pkt_len := 0, nb_segs := 0, freed := []
    bsdFreed := 0, tx_dropped := 0, queued := [] }

/-- `rte_pktmbuf_alloc`, with the number of the segment. -/
def allocSeg (alloc : ℕ → Bool) (fresh : ℕ → Memory) (st : TxSend) : Option (ℕ × TxSend) :=
  if alloc st.allocated then
    some (st.allocated, { st with
      segs := Function.update st.segs st.allocated (TxSeg.reset (fresh st.allocated))
      allocated := st.allocated + 1 })
  else none

/-- The segments from one on, along their links, at most `n` of them. -/
def linkedSegs (segs : ℕ → TxSeg) : ℕ → Option ℕ → List ℕ
  | 0, _ => []
  | _ + 1, none => []
  | n + 1, some k => k :: linkedSegs segs n (segs k).next

/-- `rte_pktmbuf_free` of a packet.
SOURCE: dpdk/lib/mbuf/rte_mbuf.h:1415-1427 -/
def freePacket (st : TxSend) (head : ℕ) : TxSend :=
  { st with freed := st.freed ++ linkedSegs st.segs st.allocated (some head) }

/-- `prev->next = cur`, if there is a segment before. -/
def linkSeg (segs : ℕ → TxSeg) (prev : Option ℕ) (cur : ℕ) : ℕ → TxSeg :=
  match prev with
  | none => segs
  | some p => Function.update segs p { segs p with next := some cur }

/-- A round of the loop, for the segment `cur`; `copy off len` are the bytes of the packet, if they can
be copied.
SOURCE: lib/ff_dpdk_if.c:2243-2264, lib/ff_dpdk_if.c:2366-2379 -/
def fillSeg (copy : ℕ → ℕ → Option (List UInt8)) (st : TxSend) (cur : ℕ) (prev : Option ℕ)
    (off len : ℕ) : TxSend × Bool :=
  let st := { st with
    segs := linkSeg st.segs prev cur
    nb_segs := (st.nb_segs + 1) % 65536 }
  match copy off len with
  | none => (freePacket { st with tx_dropped := st.tx_dropped + st.nb_segs } 0, false)
  | some bytes =>
    ({ st with
      segs := Function.update st.segs cur
        { st.segs cur with data := writeAt (st.segs cur).data 0 bytes, data_len := len } }, true)

/-- The loop.  Each round takes at least one byte of the packet, so `total` rounds are enough.
SOURCE: lib/ff_dpdk_if.c:2233-2265, lib/ff_dpdk_if.c:2355-2380 -/
def copyLoop (alloc : ℕ → Bool) (fresh : ℕ → Memory) (copy : ℕ → ℕ → Option (List UInt8)) :
    ℕ → TxSend → Option ℕ → Option ℕ → ℕ → ℕ → TxSend × Bool
  | 0, st, _, _, _, _ => (st, true)
  | fuel + 1, st, cur, prev, off, total =>
    if total = 0 then (st, true)
    else
      let acquired :=
        match cur with
        | some k => some (k, st)
        | none => allocSeg alloc fresh st
      match acquired with
      | none => (freePacket { st with tx_dropped := st.tx_dropped + (st.nb_segs + 1) } 0, false)
      | some (k, st) =>
        let len := if total > RTE_MBUF_DEFAULT_DATAROOM then RTE_MBUF_DEFAULT_DATAROOM else total
        match fillSeg copy st k prev off len with
        | (st, false) => (st, false)
        | (st, true) => copyLoop alloc fresh copy fuel st none (some k) (off + len) (total - len)

/-- A packet of the stack: its bytes, `m_pkthdr.len` of them, and what it asks of the NIC. -/
structure BsdPacket where
  data : List UInt8
  hdr : TxPktHdr

/-- `ff_mbuf_copydata`.
SOURCE: lib/ff_veth.c:254-267 -/
def ffMbufCopydata (m : BsdPacket) (off len : ℕ) : Option (List UInt8) :=
  if off + len > m.data.length then none else some ((m.data.drop off).take len)

/-- `send_single_packet`, which puts the packet into the table of its port. -/
def queuePacket (st : TxSend) (head : ℕ) : TxSend := { st with queued := st.queued ++ [head] }

/-- `ff_mbuf_free`. -/
def freeBsdPacket (st : TxSend) : TxSend := { st with bsdFreed := st.bsdFreed + 1 }

/-- The offload code, on the head of the packet. -/
def offloadHead (tx_csum_l4 : Bool) (hdr : TxPktHdr) (st : TxSend) (head : ℕ) : TxSend :=
  let h := sendOffload tx_csum_l4 hdr (st.segs head).toHeadMbuf
  { st with segs := Function.update st.segs head { st.segs head with toHeadMbuf := h } }

/-- `ff_dpdk_if_send`, for a context with the feature `tx_csum_l4`, and its answer.
SOURCE: lib/ff_dpdk_if.c:2198-2339 -/
def ffDpdkIfSendCopy (alloc : ℕ → Bool) (fresh : ℕ → Memory) (ctx : Option Bool) (m : BsdPacket)
    (total : ℕ) : TxSend × ℤ :=
  match ctx with
  | none => (freeBsdPacket { TxSend.start with tx_dropped := 1 }, -1)
  | some tx_csum_l4 =>
    match allocSeg alloc fresh TxSend.start with
    | none => (freeBsdPacket { TxSend.start with tx_dropped := 1 }, -1)
    | some (head, st) =>
      let st := { st with pkt_len := total, nb_segs := 0 }
      match copyLoop alloc fresh (ffMbufCopydata m) total st (some head) none 0 total with
      | (st, false) => (freeBsdPacket st, -1)
      | (st, true) =>
        (queuePacket (freeBsdPacket (offloadHead tx_csum_l4 m.hdr st head)) head, 0)

/-- `ff_dpdk_raw_packet_send`, of a buffer with `total` bytes.
SOURCE: lib/ff_dpdk_if.c:2341-2383 -/
def ffDpdkRawPacketSendCopy (alloc : ℕ → Bool) (fresh : ℕ → Memory) (data : List UInt8)
    (total : ℕ) : TxSend × ℤ :=
  match allocSeg alloc fresh TxSend.start with
  | none => ({ TxSend.start with tx_dropped := 1 }, -1)
  | some (head, st) =>
    let st := { st with pkt_len := total, nb_segs := 0 }
    match copyLoop alloc fresh (fun off len => some ((data.drop off).take len)) total st (some head)
        none 0 total with
    | (st, false) => (st, -1)
    | (st, true) => (queuePacket st head, 0)

end FStack.Model
