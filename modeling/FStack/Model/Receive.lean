import FStack.Model.PacketFilter
import FStack.Model.RssHash
import FStack.Model.Transmit

/-!
# Reception

`process_packets` and `process_dispatch_ring` (`lib/ff_dpdk_if.c`) for one port: a received packet
goes to the dispatcher, to the other queues' rings, to KNI or to the stack.

A call is described by what it does with the packets, in order (`RxEvent`).  What it meets
outside, such as whether an allocation or a ring accepts, is in `RxEnv`.  The classification of a
packet is an argument, because `protocol_filter` need not return; the call then gives `none`.
-/

set_option autoImplicit false

namespace FStack.Model

/-- One segment: its bytes, with what the data room holds behind them. -/
structure RxSeg where
  mem : Memory
  data_len : UInt16

/-- A received packet.  `vlan` is the tag that the NIC has stripped. -/
structure Frame where
  head : RxSeg
  rest : List RxSeg
  pkt_len : ℕ
  vlan : Option UInt16
  headroom : ℕ

/-- An `rte_mbuf`.  A copy has the identity of the packet it was made from. -/
structure Mbuf where
  id : ℕ
  frame : Frame

/-- `enum FF_KNICTL_ACTION`.
SOURCE: lib/ff_msg.h:118-123 -/
inductive KnictlAction where
  | default
  | allToKni
  | allToFf
  | max
  deriving DecidableEq

/-- What a dispatcher leaves behind: its answer, the data and the length. -/
structure Verdict where
  ret : ℤ
  mem : Memory
  len : UInt16

/-- `struct ff_dispatcher_context`. -/
structure DispatcherContext where
  stripped : Bool
  vlan_tci : UInt16

/-- The settings of a process.  The first argument of a dispatcher tells its calls apart, the last
two are `queue_id` and `nb_queues`. -/
structure RxConf where
  nb_queues : ℕ
  packet_dispatcher : Option (ℕ → Memory → UInt16 → ℕ → ℕ → Verdict)
  packet_dispatcher_with_context :
    Option (ℕ → Memory → UInt16 → ℕ → ℕ → DispatcherContext → Verdict)
  is_primary : Bool
  enable_kni : Bool
  kni_accept : Bool
  knictl_action : KnictlAction

/-- What one packet meets: whether the copy for a queue, or for KNI (`none`), can be allocated, what
the data rooms of that copy held before, and whether a ring accepts. -/
structure RxEnv where
  clone : Option ℕ → Bool
  room : Option ℕ → ℕ → Memory
  enqueue : ℤ → Bool

/-- What `process_packets` does.  The first five end the life of an input packet, the next three
that of a copy; `access` is a use of `dispatch_ring[port_id][i]`. -/
inductive RxEvent where
  | veth (m : Mbuf)
  | kni (m : Mbuf)
  | send (m : Mbuf)
  | store (i : ℤ) (m : Mbuf)
  | free (m : Mbuf)
  | cloneStore (i : ℤ) (c : Mbuf)
  | cloneKni (c : Mbuf)
  | cloneFree (c : Mbuf)
  | access (i : ℤ)

def RTE_PKTMBUF_HEADROOM : ℕ := 128

/-- `pktmbuf_deep_attach`: the data is copied, and the rest of the new data room stays.
SOURCE: lib/ff_dpdk_if.c:1659-1678 -/
def pktmbufDeepAttach (room : Memory) (s : RxSeg) : RxSeg :=
  ⟨fun i => if i < s.data_len.toNat then s.mem i else room i, s.data_len⟩

/-- `pktmbuf_deep_clone`.
SOURCE: lib/ff_dpdk_if.c:1680-1717 -/
def pktmbufDeepClone (env : RxEnv) (dest : Option ℕ) (m : Mbuf) : Option Mbuf :=
  if env.clone dest then
    some { m with frame := { m.frame with
      head := pktmbufDeepAttach (env.room dest 0) m.frame.head
      rest := m.frame.rest.mapIdx fun i s => pktmbufDeepAttach (env.room dest (i + 1)) s
      headroom := RTE_PKTMBUF_HEADROOM } }
  else none

/-- `ff_add_vlan_tag`: the stripped tag is put back, if there is room in front of the data.
SOURCE: lib/ff_dpdk_if.c:1719-1735 -/
def ffAddVlanTag (m : Mbuf) : Mbuf :=
  match m.frame.vlan with
  | none => m
  | some tci =>
    if m.frame.headroom < 4 then m
    else
      let old := m.frame.head.mem
      let mem : Memory := fun i =>
        if i < 12 then old i
        else if i = 12 then 0x81 else if i = 13 then 0x00
        else if i = 14 then (tci >>> 8).toUInt8 else if i = 15 then tci.toUInt8
        else old (i - 4)
      { m with frame := { m.frame with
        head := ⟨mem, m.frame.head.data_len + 4⟩
        pkt_len := m.frame.pkt_len + 4
        headroom := m.frame.headroom - 4 } }

/-- The call of the registered dispatcher, if there is one.
SOURCE: lib/ff_dpdk_if.c:1762-1781 -/
def dispatcherVerdict (conf : RxConf) (queue_id k : ℕ) (m : Mbuf) : Option Verdict :=
  match conf.packet_dispatcher, conf.packet_dispatcher_with_context with
  | some f, _ => some (f k m.frame.head.mem m.frame.head.data_len queue_id conf.nb_queues)
  | none, some f =>
    let ctx : DispatcherContext :=
      match m.frame.vlan with
      | some tci => ⟨true, htons tci⟩
      | none => ⟨false, 0⟩
    some (f k m.frame.head.mem m.frame.head.data_len queue_id conf.nb_queues ctx)
  | none, none => none

def FF_DISPATCH_ERROR : ℤ := -1

def FF_DISPATCH_RESPONSE : ℤ := -2

/-- The copies for the other queues.
SOURCE: lib/ff_dpdk_if.c:1820-1841 -/
def fanOut (conf : RxConf) (queue_id : ℕ) (env : RxEnv) (m : Mbuf) : List RxEvent :=
  (List.range conf.nb_queues).flatMap fun j =>
    if j = queue_id then []
    else
      match pktmbufDeepClone env (some j) m with
      | none => []
      | some c => if env.enqueue j then [.access j, .cloneStore j c] else [.access j, .cloneFree c]

/-- The copy for KNI.
SOURCE: lib/ff_dpdk_if.c:1843-1852 -/
def kniCopy (conf : RxConf) (env : RxEnv) (m : Mbuf) : List RxEvent :=
  if conf.enable_kni && conf.is_primary then
    match pktmbufDeepClone env none m with
    | none => []
    | some c => [.cloneKni (ffAddVlanTag c)]
  else []

/-- A packet of this class goes to KNI and not to the stack.
SOURCE: lib/ff_dpdk_if.c:1854-1872 -/
def toKni (conf : RxConf) (filter : FilterReturn) : Bool :=
  conf.enable_kni &&
    match conf.knictl_action with
    | .allToKni => true
    | .allToFf => false
    | .default =>
      (decide (filter = .kni) && conf.kni_accept) ||
        ((decide (filter = .unknown) || decide (FilterReturn.ospf.val ≤ filter.val)) &&
          !conf.kni_accept)
    | .max => false

/-- `process_packets` on a packet that has been classified.
SOURCE: lib/ff_dpdk_if.c:1810-1875 -/
def processClassified (conf : RxConf) (queue_id : ℕ) (pkts_from_ring : Bool) (env : RxEnv)
    (m : Mbuf) (filter : FilterReturn) : List RxEvent :=
  if filter = .arp ∨ filter = .ndp then
    (if pkts_from_ring then [] else fanOut conf queue_id env m) ++ kniCopy conf env m ++ [.veth m]
  else if toKni conf filter then [.kni (ffAddVlanTag m)]
  else [.veth m]

/-- The body of the loop of `process_packets`.
SOURCE: lib/ff_dpdk_if.c:1745-1876 -/
def processPacket (conf : RxConf) (queue_id : ℕ) (pkts_from_ring : Bool)
    (filter : Memory → ℕ → Option FilterReturn) (env : RxEnv) (k : ℕ) (m : Mbuf) :
    Option (List RxEvent) :=
  match if pkts_from_ring then none else dispatcherVerdict conf queue_id k m with
  | none =>
    (filter m.frame.head.mem m.frame.head.data_len.toNat).map
      (processClassified conf queue_id pkts_from_ring env m)
  | some v =>
    let m := { m with frame := { m.frame with head := ⟨v.mem, m.frame.head.data_len⟩ } }
    if v.ret = FF_DISPATCH_RESPONSE then
      some [.send (ffAddVlanTag { m with frame := { m.frame with
        head := ⟨v.mem, v.len⟩, pkt_len := v.len.toNat } })]
    else if v.ret = FF_DISPATCH_ERROR ∨ (conf.nb_queues : ℤ) ≤ v.ret then some [.free m]
    else if v.ret ≠ queue_id then
      some (if env.enqueue v.ret then [.access v.ret, .store v.ret m]
        else [.access v.ret, .free m])
    else (filter v.mem v.len.toNat).map (processClassified conf queue_id pkts_from_ring env m)

/-- `process_packets`.
SOURCE: lib/ff_dpdk_if.c:1737-1877 -/
def processPackets (conf : RxConf) (queue_id : ℕ) (pkts_from_ring : Bool)
    (filter : Memory → ℕ → Option FilterReturn) (env : ℕ → RxEnv) :
    ℕ → List Mbuf → Option (List RxEvent)
  | _, [] => some []
  | k, m :: bufs =>
    match processPacket conf queue_id pkts_from_ring filter (env k) k m with
    | none => none
    | some evs => (processPackets conf queue_id pkts_from_ring filter env (k + 1) bufs).map (evs ++ ·)

/-! ## The queues of a port -/

/-- The dispatch rings of a port, what each queue's process has given to `ff_veth_input`, and the
packets received from the NIC, with the queue. -/
structure RxState where
  dispatch_ring : ℕ → List Mbuf
  delivered : ℕ → List Mbuf
  received : List (ℕ × Mbuf)

def RxState.init : RxState := ⟨fun _ => [], fun _ => [], []⟩

/-- The effect of an event in the process of `queue_id`. -/
def applyEvent (queue_id : ℕ) (st : RxState) : RxEvent → RxState
  | .veth m => { st with
      delivered := Function.update st.delivered queue_id (st.delivered queue_id ++ [m]) }
  | .store i m => { st with
      dispatch_ring := Function.update st.dispatch_ring i.toNat (st.dispatch_ring i.toNat ++ [m]) }
  | .cloneStore i c => { st with
      dispatch_ring := Function.update st.dispatch_ring i.toNat (st.dispatch_ring i.toNat ++ [c]) }
  | .kni _ | .send _ | .free _ | .cloneKni _ | .cloneFree _ | .access _ => st

/-- The processes of a port, one for each queue: each has its own settings, and they agree on the
number of queues. -/
structure RxPort where
  nb_queues : ℕ
  conf : ℕ → RxConf
  kni : ℕ → KniConf
  nb_queues_eq : ∀ q, (conf q).nb_queues = nb_queues
  enable_kni_eq : ∀ q, (kni q).enable_kni = (conf q).enable_kni

/-- A packet is received on a queue.  `main_loop` calls `process_packets` for one packet at a time.
`depth` bounds the nested activations of `protocol_filter_ip`.
SOURCE: lib/ff_dpdk_if.c:2488-2511 -/
def receivePacket (port : RxPort) (depth : ℕ) (st : RxState) (queue_id : ℕ) (frame : Frame)
    (env : RxEnv) : Option RxState :=
  let m : Mbuf := ⟨st.received.length, frame⟩
  (processPackets (port.conf queue_id) queue_id false (protocolFilter (port.kni queue_id) depth)
    (fun _ => env) 0 [m]).map fun evs =>
    evs.foldl (applyEvent queue_id) { st with received := st.received ++ [(queue_id, m)] }

/-- `process_dispatch_ring`.
SOURCE: lib/ff_dpdk_if.c:1879-1893 -/
def processDispatchRing (port : RxPort) (depth : ℕ) (st : RxState) (queue_id : ℕ)
    (env : ℕ → RxEnv) : Option RxState :=
  let bufs := (st.dispatch_ring queue_id).take MAX_PKT_BURST
  let rest := (st.dispatch_ring queue_id).drop MAX_PKT_BURST
  (processPackets (port.conf queue_id) queue_id true (protocolFilter (port.kni queue_id) depth)
    env 0 bufs).map fun evs =>
    evs.foldl (applyEvent queue_id)
      { st with dispatch_ring := Function.update st.dispatch_ring queue_id rest }

end FStack.Model
