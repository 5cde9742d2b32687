import FStack.Model.ConfigText
import FStack.Model.PacketFilter
import FStack.Model.RssHash

/-!
# The queues to the kernel

`ff_kni_enqueue` and `kni_process_tx` (`lib/ff_dpdk_kni.c`), and the place in `main_loop`
(`lib/ff_dpdk_if.c`) where the rate limits start again.  Packets go through the ring of their port,
and from there to the kernel's port.

A packet is followed by its identity, and what has been done with packets is kept in logs.  The
statistics and the counters of the limits are 64-bit numbers that count packets; no run lasts long
enough for them to overflow.
-/

set_option autoImplicit false

namespace FStack.Model

/-- What the functions read of the configuration, and of the process. -/
structure KniQueueConf where
  console_packets_ratelimit : Int32
  general_packets_ratelimit : Int32
  kernel_packets_ratelimit : Int32
  enable_kni : Bool
  /-- `rte_eal_process_type() == RTE_PROC_PRIMARY` -/
  primary : Bool
  /-- how many packets a ring holds -/
  capacity : ℕ

/-- `(uint64_t)` of an `int`. -/
def u64OfInt (x : Int32) : ℕ := (x.toInt % 2 ^ 64).toNat

/-- The ring and the statistics of a port, and the logs of its packets. -/
structure KniPort where
  /-- `kni_rp[port_id]` -/
  kni_rp : List ℕ
  rx_packets : ℕ
  rx_dropped : ℕ
  /-- the packets given to `ff_kni_enqueue` -/
  handed : List ℕ
  /-- the packets that `rte_eth_tx_burst` has accepted -/
  sent : List ℕ
  /-- the packets given to `rte_pktmbuf_free` -/
  freed : List ℕ

structure KniQueues where
  console_packets : ℕ
  gerneal_packets : ℕ
  kernel_packets : ℕ
  last_sec : ℤ
  port : ℕ → KniPort
  /-- how many packets with a filter from `FILTER_ARP` on have entered a ring -/
  consoleEntered : ℕ
  /-- how many others have -/
  generalEntered : ℕ
  /-- how many packets `rte_eth_tx_burst` has been given -/
  passed : ℕ

/-- Everything is zero at the start. -/
def KniQueues.init : KniQueues :=
  { console_packets := 0, gerneal_packets := 0, kernel_packets := 0, last_sec := 0
    port := fun _ => ⟨[], 0, 0, [], [], []⟩
    consoleEntered := 0, generalEntered := 0, passed := 0 }

/-- The counters at the start of `ff_kni_enqueue`, and whether the packet is below its limit.
SOURCE: lib/ff_dpdk_kni.c:504-518 -/
def kniAdmit (conf : KniQueueConf) (st : KniQueues) (filter : FilterReturn) : KniQueues × Bool :=
  if FilterReturn.arp.val ≤ filter.val then
    if conf.console_packets_ratelimit ≠ 0 then
      let st := { st with console_packets := st.console_packets + 1 }
      (st, decide (st.console_packets ≤ u64OfInt conf.console_packets_ratelimit))
    else (st, true)
  else if conf.general_packets_ratelimit ≠ 0 then
    let st := { st with gerneal_packets := st.gerneal_packets + 1 }
    (st, decide (st.gerneal_packets ≤ u64OfInt conf.general_packets_ratelimit))
  else (st, true)

/-- The end of `ff_kni_enqueue` for a packet that does not enter.
SOURCE: lib/ff_dpdk_kni.c:527-534 -/
def kniEnqueueError (conf : KniQueueConf) (p : KniPort) (pkt : ℕ) : KniPort :=
  { p with
    rx_dropped := if conf.primary then p.rx_dropped + 1 else p.rx_dropped
    freed := p.freed ++ [pkt] }

/-- `ff_kni_enqueue`.  `rte_ring_enqueue` fails on a full ring.
SOURCE: lib/ff_dpdk_kni.c:501-535 -/
def ffKniEnqueue (conf : KniQueueConf) (st : KniQueues) (filter : FilterReturn) (port_id pkt : ℕ) :
    KniQueues :=
  let (st, admitted) := kniAdmit conf st filter
  let p := { st.port port_id with handed := (st.port port_id).handed ++ [pkt] }
  if admitted && decide (p.kni_rp.length < conf.capacity) then
    let st := { st with
      port := Function.update st.port port_id { p with kni_rp := p.kni_rp ++ [pkt] } }
    if FilterReturn.arp.val ≤ filter.val then { st with consoleEntered := st.consoleEntered + 1 }
    else { st with generalEntered := st.generalEntered + 1 }
  else { st with port := Function.update st.port port_id (kniEnqueueError conf p pkt) }

/-- How many of the dequeued packets are sent on.
SOURCE: lib/ff_dpdk_kni.c:148-157 -/
def kniToTx (conf : KniQueueConf) (st : KniQueues) (nb_tx : ℕ) : ℕ :=
  if conf.kernel_packets_ratelimit ≠ 0 then
    if st.kernel_packets < u64OfInt conf.kernel_packets_ratelimit then nb_tx else 0
  else nb_tx

/-- `kni_process_tx`.  `rte_ring_dequeue_burst` takes as many packets as there are, up to `count`;
`rte_eth_tx_burst` accepts the first `accepted` packets, and never more than it is given.
SOURCE: lib/ff_dpdk_kni.c:136-171 -/
def kniProcessTx (conf : KniQueueConf) (st : KniQueues) (port_id count accepted : ℕ) : KniQueues :=
  let p := st.port port_id
  let pkts_burst := p.kni_rp.take count
  let nb_tx := pkts_burst.length % 65536
  let nb_to_tx := kniToTx conf st nb_tx
  let nb_kni_tx := min accepted nb_to_tx
  { st with
    kernel_packets :=
      if conf.kernel_packets_ratelimit ≠ 0 then st.kernel_packets + nb_tx else st.kernel_packets
    passed := st.passed + nb_to_tx
    port := Function.update st.port port_id
      { p with
        kni_rp := p.kni_rp.drop count
        sent := p.sent ++ pkts_burst.take nb_kni_tx
        freed := p.freed ++ (pkts_burst.take nb_tx).drop nb_kni_tx
        rx_dropped := p.rx_dropped + (nb_tx - nb_kni_tx)
        rx_packets := p.rx_packets + nb_kni_tx } }

/-- Whether `main_loop` starts the limits again in the second `sec`.
SOURCE: lib/ff_dpdk_if.c:2418-2428 -/
def kniResets (conf : KniQueueConf) (st : KniQueues) (sec : ℤ) : Bool :=
  conf.enable_kni &&
    (conf.console_packets_ratelimit != 0 || conf.general_packets_ratelimit != 0 ||
      conf.kernel_packets_ratelimit != 0) && decide (st.last_sec < sec)

/-- SOURCE: lib/ff_dpdk_if.c:2417-2442 -/
def resetKniRatelimt (conf : KniQueueConf) (st : KniQueues) (sec : ℤ) : KniQueues :=
  if kniResets conf st sec then
    { st with last_sec := sec, gerneal_packets := 0, console_packets := 0, kernel_packets := 0 }
  else st

/-- What a process does with the queues to the kernel. -/
inductive KniAction where
  | enqueue (filter : FilterReturn) (port_id pkt : ℕ)
  | processTx (port_id count accepted : ℕ)
  /-- an iteration of `main_loop` in which the clock has expired -/
  | clock (sec : ℤ)

def kniStep (conf : KniQueueConf) (st : KniQueues) : KniAction → KniQueues
  | .enqueue filter port_id pkt => ffKniEnqueue conf st filter port_id pkt
  | .processTx port_id count accepted => kniProcessTx conf st port_id count accepted
  | .clock sec => resetKniRatelimt conf st sec

/-!
## The port lists of the kernel interface

`kni_set_bitmap` (`lib/ff_dpdk_kni.c`) reads a list of ports and ranges into the bitmap of 8192
bytes that `protocol_filter_l4` asks.  It goes from comma to comma, and looks for the next dash in
all that is left of the list.

The text is the characters in front of the terminating zero.  Both loops count their rounds, and the
answer `none` means that the bound on them was reached.
-/

abbrev PortBitmap := ℕ → UInt8

/-- `set_bitmap`.
SOURCE: lib/ff_dpdk_kni.c:94-100 -/
def setBitmap (port : UInt16) (bitmap : PortBitmap) : PortBitmap :=
  let port := (htons port).toNat
  Function.update bitmap (port / 8)
    (UInt8.ofNat ((bitmap (port / 8)).toNat ||| (0x80 >>> (port % 8))))

/-- `atoi`, on what is left of a text. -/
def atoiText (s : List Char) : ℤ := toInt (strtol s).1

/-- The loop over a range, from `i` to `last`.
SOURCE: lib/ff_dpdk_kni.c:122-124 -/
def kniSetRange : ℕ → ℤ → ℤ → PortBitmap → Option PortBitmap
  | 0, _, _, _ => none
  | fuel + 1, i, last, bitmap =>
    if i ≤ last then
      kniSetRange fuel (toInt (i + 1)) last (setBitmap (UInt16.ofNat (toU16 i)) bitmap)
    else some bitmap

/-- One round of `kni_set_bitmap`, for the comma at `tail` and the dash at `tail_num`.
SOURCE: lib/ff_dpdk_kni.c:121-127 -/
def kniSetElement (fuel : ℕ) (head : List Char) (tail tail_num : Option ℕ) (bitmap : PortBitmap) :
    Option PortBitmap :=
  match tail_num with
  | none => some (setBitmap (UInt16.ofNat (toU16 (atoiText head))) bitmap)
  | some dash =>
    if (tail.all fun comma => decide (dash + 1 < comma)) then
      kniSetRange fuel (atoiText head) (atoiText (head.drop (dash + 1))) bitmap
    else some (setBitmap (UInt16.ofNat (toU16 (atoiText head))) bitmap)

/-- The loop of `kni_set_bitmap`.
SOURCE: lib/ff_dpdk_kni.c:118-133 -/
def kniSetLoop : ℕ → List Char → PortBitmap → Option PortBitmap
  | 0, _, _ => none
  | fuel + 1, head, bitmap =>
    let tail := head.findIdx? (· = ',')
    let tail_num := head.findIdx? (· = '-')
    match kniSetElement fuel head tail tail_num bitmap with
    | none => none
    | some bitmap =>
      match tail with
      | none => some bitmap
      | some comma => kniSetLoop fuel (head.drop (comma + 1)) bitmap

/-- `kni_set_bitmap`.
SOURCE: lib/ff_dpdk_kni.c:109-134 -/
def kniSetBitmap (fuel : ℕ) (p : Option (List Char)) (port_bitmap : PortBitmap) :
    Option PortBitmap :=
  match p with
  | none => some port_bitmap
  | some p => kniSetLoop fuel p port_bitmap

end FStack.Model
