import FStack.Model.BuildLimits
import Mathlib.Algebra.Order.Ring.Int

/-!
# Transmission

The queues between the stack and the NIC in the `FF_USE_PAGE_ARRAY` build:
`ff_dpdk_if_send`, `ff_dpdk_raw_packet_send`, `send_single_packet`, `send_burst` and the drain in
`main_loop` (`lib/ff_dpdk_if.c`), with `ff_if_send_onepkt` and the ring of BSD mbufs
(`lib/ff_memory.c`).

An mbuf is followed by its identity.  An `rte_mbuf` gets a new one when it is placed in
`m_table`, and names the BSD mbuf it was made from.  What has been handed to the NIC, freed or
recorded is kept in logs.  `none` stands for `NULL` in a table, and for `rte_panic` as the result
of a call.
-/

set_option autoImplicit false

namespace FStack.Model

def RTE_MBUF_DEFAULT_DATAROOM : ℕ := 2048

abbrev PortId := Fin RTE_MAX_ETHPORTS

/-- A packet for the NIC.  `bsd` is the BSD mbuf whose data it refers to, if it is one of the
stack's. -/
structure RteMbuf where
  id : ℕ
  nb_segs : ℕ
  bsd : Option ℕ
  deriving DecidableEq

/-- A packet of the stack: the data pointers of its mbufs, and, if it carries a received packet as
its external cluster (`ff_rte_frm_extcl`), that packet's number of segments. -/
structure StackMbuf where
  id : ℕ
  m_data : UInt64
  m_next : List UInt64
  extcl : Option ℕ

/-- `struct mbuf_table`. -/
structure MbufTable where
  len : ℕ
  m_table : ℕ → Option RteMbuf
  bsd_m_table : ℕ → Option ℕ

/-- `struct mbuf_txring`. -/
structure MbufTxring where
  m_table : Fin TX_QUEUE_SIZE → Option ℕ
  head : Fin TX_QUEUE_SIZE

/-- The tables of the process, and the logs. -/
structure TxState where
  tx_mbufs : PortId → MbufTable
  nic_tx_ring : PortId → MbufTxring
  /-- how many packets have been placed in an `m_table` -/
  placed : ℕ
  /-- the packets that `rte_eth_tx_burst` has accepted -/
  nic : List RteMbuf
  /-- the packets given to `rte_pktmbuf_free` -/
  freed : List RteMbuf
  /-- the BSD mbufs passed to `ff_dpdk_if_send` -/
  passed : List ℕ
  /-- the BSD mbufs given to `ff_mbuf_free` -/
  bsdFreed : List ℕ
  /-- the BSD mbufs stored in a ring -/
  recorded : List ℕ
  /-- the packets that `send_burst` went through, each with the slot of `bsd_m_table` it read -/
  consulted : List (RteMbuf × Option ℕ)

/-- Everything is zero at the start. -/
def TxState.init : TxState :=
  { tx_mbufs := fun _ => ⟨0, fun _ => none, fun _ => none⟩
    nic_tx_ring := fun _ => ⟨fun _ => none, ⟨0, by decide⟩⟩
    placed := 0, nic := [], freed := [], passed := [], bsdFreed := [], recorded := []
    consulted := [] }

/-! ## The page array -/

structure PageArray where
  ff_page_start : UInt64
  ff_page_end : UInt64
  /-- `stklist_size(&ff_mpage_ctl)` -/
  size : ℕ

/-- `ff_chk_vma`.
SOURCE: lib/ff_memory.c:276-279 -/
def ffChkVma (pa : PageArray) (virtaddr : UInt64) : Bool :=
  decide (pa.ff_page_start < virtaddr) && decide (virtaddr < pa.ff_page_end)

/-- Whether `ff_mem_virt2phy` finds the page; it panics otherwise.
SOURCE: lib/ff_memory.c:284-297 -/
def ffMemVirt2phy (pa : PageArray) (virtaddr : UInt64) : Bool :=
  let pages := ((virtaddr - pa.ff_page_start) >>> 12).toUInt32
  decide (pages.toNat < pa.size)

/-- The loop of `ff_bsd_to_rte` from the `k`-th mbuf on: the number of segments made, or `none`
when `rte_pktmbuf_alloc` fails.  `alloc k` says whether its `k`-th call succeeds.
SOURCE: lib/ff_memory.c:397-438 -/
def ffBsdToRte (pa : PageArray) (alloc : ℕ → Bool) : ℕ → List UInt64 → Option (Option ℕ)
  | _, [] => some (some 0)
  | k, data :: rest =>
    if alloc k = false then some none
    else if ffMemVirt2phy pa data = false then none
    else (ffBsdToRte pa alloc (k + 1) rest).map (Option.map (· + 1))

/-- `ff_extcl_to_rte`; `clone` says whether `rte_pktmbuf_clone` succeeds.
SOURCE: lib/ff_memory.c:378-395 -/
def ffExtclToRte (clone : Bool) (m : StackMbuf) : Option ℕ :=
  match m.extcl with
  | none => none
  | some nb_segs => if clone then some nb_segs else none

/-! ## Bursts -/

/-- `Head_INC`. -/
def headInc (h : Fin TX_QUEUE_SIZE) : Fin TX_QUEUE_SIZE :=
  if hlt : h.val + 1 < TX_QUEUE_SIZE then ⟨h.val + 1, hlt⟩ else ⟨0, by decide⟩

/-- `ff_mbuf_free`, when there is something to free. -/
def ffMbufFreeOpt (freed : List ℕ) : Option ℕ → List ℕ
  | none => freed
  | some m => freed ++ [m]

/-- The loop of `ff_txring_enqueue`: `n` slots are emptied.
SOURCE: lib/ff_memory.c:176-182 -/
def ffTxringSkip : ℕ → MbufTxring → List ℕ → MbufTxring × List ℕ
  | 0, q, freed => (q, freed)
  | n + 1, q, freed =>
    ffTxringSkip n ⟨Function.update q.m_table q.head none, headInc q.head⟩
      (ffMbufFreeOpt freed (q.m_table q.head))

/-- `ff_txring_enqueue`, with the BSD mbufs freed so far.
SOURCE: lib/ff_memory.c:173-189 -/
def ffTxringEnqueue (q : MbufTxring) (p : ℕ) (seg_num : ℕ) (freed : List ℕ) :
    MbufTxring × List ℕ :=
  let (q, freed) := ffTxringSkip (seg_num - 1) q freed
  (⟨Function.update q.m_table q.head (some p), headInc q.head⟩,
    ffMbufFreeOpt freed (q.m_table q.head))

/-- The body of the first loop of `send_burst`, for an accepted packet.
SOURCE: lib/ff_dpdk_if.c:2153-2161 -/
def sendBurstSent (port : PortId) (st : TxState) (i : ℕ) : TxState :=
  let t := st.tx_mbufs port
  match t.m_table i with
  | none => st
  | some m =>
    let st := { st with
      nic := st.nic ++ [m]
      consulted := st.consulted ++ [(m, t.bsd_m_table i)] }
    match t.bsd_m_table i with
    | none => st
    | some b =>
      -- `ff_enq_tx_bsdmbuf`
      let (q, freed) := ffTxringEnqueue (st.nic_tx_ring port) b m.nb_segs st.bsdFreed
      { st with
        nic_tx_ring := Function.update st.nic_tx_ring port q
        bsdFreed := freed
        recorded := st.recorded ++ [b] }

/-- The body of the second loop, for a packet that was not accepted.
SOURCE: lib/ff_dpdk_if.c:2163-2170 -/
def sendBurstUnsent (port : PortId) (st : TxState) (i : ℕ) : TxState :=
  let t := st.tx_mbufs port
  match t.m_table i with
  | none => st
  | some m =>
    { st with
      freed := st.freed ++ [m]
      consulted := st.consulted ++ [(m, t.bsd_m_table i)]
      bsdFreed := ffMbufFreeOpt st.bsdFreed (t.bsd_m_table i) }

/-- `send_burst`.  `rte_eth_tx_burst` accepts the first `accepted` packets, and never more than it
is given.
SOURCE: lib/ff_dpdk_if.c:2133-2173 -/
def sendBurst (st : TxState) (n : ℕ) (port : PortId) (accepted : ℕ) : TxState :=
  let ret := min accepted n
  let st := (List.range' 0 ret).foldl (sendBurstSent port) st
  (List.range' ret (n - ret)).foldl (sendBurstUnsent port) st

/-- The end of `send_single_packet` and of `ff_dpdk_if_send`: a full table is sent, and the new
length is stored.
SOURCE: lib/ff_dpdk_if.c:2187-2194, lib/ff_dpdk_if.c:2212-2217 -/
def storeLen (st : TxState) (port : PortId) (len : ℕ) (accepted : ℕ) : TxState :=
  let (st, len) :=
    if len = MAX_PKT_BURST then (sendBurst st MAX_PKT_BURST port accepted, 0) else (st, len)
  { st with tx_mbufs := Function.update st.tx_mbufs port { st.tx_mbufs port with len := len } }

/-- `send_single_packet`, for a packet that is not the stack's.
SOURCE: lib/ff_dpdk_if.c:2175-2195 -/
def sendSinglePacket (st : TxState) (nb_segs : ℕ) (port : PortId) (accepted : ℕ) : TxState :=
  let t := st.tx_mbufs port
  let m : RteMbuf := ⟨st.placed, nb_segs, none⟩
  let st := { st with
    tx_mbufs := Function.update st.tx_mbufs port
      { t with m_table := Function.update t.m_table t.len (some m) }
    placed := st.placed + 1 }
  storeLen st port (t.len + 1) accepted

/-! ## The senders -/

/-- What `ff_if_send_onepkt` puts in the tables. -/
def putOnepkt (st : TxState) (port : PortId) (m : StackMbuf) (nb_segs : ℕ) : TxState :=
  let t := st.tx_mbufs port
  { st with
    tx_mbufs := Function.update st.tx_mbufs port
      { t with
        m_table := Function.update t.m_table t.len (some ⟨st.placed, nb_segs, some m.id⟩)
        bsd_m_table := Function.update t.bsd_m_table t.len (some m.id) }
    placed := st.placed + 1 }

/-- The packet that `ff_if_send_onepkt` makes, by its number of segments (a `uint16_t`); `none` if
it gets none.
SOURCE: lib/ff_memory.c:452-456 -/
def onepktHead (pa : PageArray) (m : StackMbuf) (alloc : ℕ → Bool) (clone : Bool) :
    Option (Option ℕ) :=
  if ffChkVma pa m.m_data then
    (ffBsdToRte pa alloc 0 (m.m_data :: m.m_next)).map (Option.map (· % 65536))
  else some (ffExtclToRte clone m)

/-- `ff_if_send_onepkt`: the new length, which is also where errors are reported.
SOURCE: lib/ff_memory.c:440-503 -/
def ffIfSendOnepkt (pa : PageArray) (st : TxState) (port : PortId) (m : Option StackMbuf)
    (alloc : ℕ → Bool) (clone : Bool) : Option (ℕ × TxState) :=
  match m with
  | none => some (0, st)
  | some m =>
    (onepktHead pa m alloc clone).map fun
      | none => (0, { st with bsdFreed := ffMbufFreeOpt st.bsdFreed (some m.id) })
      | some nb_segs => ((st.tx_mbufs port).len + 1, putOnepkt st port m nb_segs)

/-- `ff_dpdk_if_send`.  The context is its port.
SOURCE: lib/ff_dpdk_if.c:2197-2219 -/
def ffDpdkIfSend (pa : PageArray) (st : TxState) (ctx : Option PortId) (m : Option StackMbuf)
    (alloc : ℕ → Bool) (clone : Bool) (accepted : ℕ) : Option TxState :=
  let st := { st with passed := ffMbufFreeOpt st.passed (m.map StackMbuf.id) }
  match ctx with
  | none => some { st with bsdFreed := ffMbufFreeOpt st.bsdFreed (m.map StackMbuf.id) }
  | some port =>
    (ffIfSendOnepkt pa st port m alloc clone).map fun (len, st) => storeLen st port len accepted

/-- The loop of `ff_dpdk_raw_packet_send` from the `k`-th segment on: the number of segments, or
`none` when an allocation fails.  Each round takes at least one byte, so `total` rounds are enough.
SOURCE: lib/ff_dpdk_if.c:2356-2379 -/
def rawSegments (alloc : ℕ → Bool) : ℕ → ℕ → ℕ → Option ℕ
  | 0, _, _ => some 0
  | fuel + 1, k, total =>
    if total = 0 then some 0
    else if alloc k = false then none
    else (rawSegments alloc fuel (k + 1) (total - min total RTE_MBUF_DEFAULT_DATAROOM)).map (· + 1)

/-- `ff_dpdk_raw_packet_send`.
SOURCE: lib/ff_dpdk_if.c:2341-2383 -/
def ffDpdkRawPacketSend (st : TxState) (total : ℕ) (port : PortId) (alloc : ℕ → Bool)
    (accepted : ℕ) : TxState :=
  if alloc 0 = false then st
  else
    match rawSegments alloc total 0 total with
    | none => st
    | some nb_segs => sendSinglePacket st (nb_segs % 65536) port accepted

/-- The drain of one port in `main_loop`.
SOURCE: lib/ff_dpdk_if.c:2454-2465 -/
def drainPort (accepted : PortId → ℕ) (st : TxState) (port : PortId) : TxState :=
  if (st.tx_mbufs port).len = 0 then st
  else
    let st := sendBurst st (st.tx_mbufs port).len port (accepted port)
    { st with tx_mbufs := Function.update st.tx_mbufs port { st.tx_mbufs port with len := 0 } }

/-- What the process does with its transmission queues.  `response` is a packet for which the
dispatcher returned `FF_DISPATCH_RESPONSE`. -/
inductive TxAction where
  | ifSend (ctx : Option PortId) (m : Option StackMbuf) (alloc : ℕ → Bool) (clone : Bool)
      (accepted : ℕ)
  | rawSend (total : ℕ) (port : PortId) (alloc : ℕ → Bool) (accepted : ℕ)
  | response (nb_segs : ℕ) (port : PortId) (accepted : ℕ)
  | drain (accepted : PortId → ℕ)

/-- One step, for the ports `tx_port_id` that `main_loop` drains. -/
def txStep (pa : PageArray) (tx_port_id : List PortId) (st : TxState) : TxAction → Option TxState
  | .ifSend ctx m alloc clone accepted => ffDpdkIfSend pa st ctx m alloc clone accepted
  | .rawSend total port alloc accepted => some (ffDpdkRawPacketSend st total port alloc accepted)
  | .response nb_segs port accepted => some (sendSinglePacket st nb_segs port accepted)
  | .drain accepted => some (tx_port_id.foldl (drainPort accepted) st)

/-!
## The ring of transmitted mbufs

`struct mbuf_txring` with its head as the `uint16_t` of the source, in any state: the table is a
function on all indices.  A ring is used by calls of `ff_txring_enqueue` only, each with a mbuf and
its number of segments.
-/

/-- `struct mbuf_txring`.
SOURCE: lib/ff_memory.h:96-99 -/
structure RawTxring where
  m_table : ℕ → Option ℕ
  head : UInt16

/-- `ff_txring_init`, and the zeroed `nic_tx_ring`. -/
def RawTxring.zeroed : RawTxring := ⟨fun _ => none, 0⟩

/-- `Head_INC`.
SOURCE: lib/ff_memory.c:78-81 -/
def rawHeadInc (h : UInt16) : UInt16 :=
  let h := h + 1
  if TX_QUEUE_SIZE ≤ h.toNat then 0 else h

/-- The loop of `ff_txring_enqueue`.
SOURCE: lib/ff_memory.c:176-182 -/
def rawTxringSkip : ℕ → RawTxring → List ℕ → RawTxring × List ℕ
  | 0, q, freed => (q, freed)
  | n + 1, q, freed =>
    match q.m_table q.head.toNat with
    | none => rawTxringSkip n { q with head := rawHeadInc q.head } freed
    | some m =>
      rawTxringSkip n
        ⟨Function.update q.m_table q.head.toNat none, rawHeadInc q.head⟩ (freed ++ [m])

/-- `ff_txring_enqueue`, and what it gives to `ff_mbuf_free`.
SOURCE: lib/ff_memory.c:173-189 -/
def rawTxringEnqueue (q : RawTxring) (p : ℕ) (seg_num : ℕ) : RawTxring × List ℕ :=
  let (q, freed) := rawTxringSkip (seg_num - 1) q []
  (⟨Function.update q.m_table q.head.toNat (some p), rawHeadInc q.head⟩,
    ffMbufFreeOpt freed (q.m_table q.head.toNat))

/-- The ring after some calls, each given by its mbuf and its number of segments. -/
def rawTxringAfter (calls : List (ℕ × ℕ)) : RawTxring :=
  calls.foldl (fun q c => (rawTxringEnqueue q c.1 c.2).1) RawTxring.zeroed

/-- What the `j`-th of the calls frees. -/
def freedByCall (calls : List (ℕ × ℕ)) (j : ℕ) : List ℕ :=
  match calls[j]? with
  | none => []
  | some c => (rawTxringEnqueue (rawTxringAfter (calls.take j)) c.1 c.2).2

/-! ## Descriptors -/

/-- How many descriptors the first `j` calls consume. -/
def descriptorsBefore (calls : List (ℕ × ℕ)) (j : ℕ) : ℕ := ((calls.take j).map Prod.snd).sum

/-- The last descriptor of the `i`-th call, which is where the ring keeps its mbuf. -/
def lastDescriptor (calls : List (ℕ × ℕ)) (i : ℕ) : ℕ := descriptorsBefore calls (i + 1) - 1

/-- The mbuf of the `i`-th call. -/
def callMbuf (calls : List (ℕ × ℕ)) (i : ℕ) : ℕ := (calls.getD i (0, 0)).1

end FStack.Model
