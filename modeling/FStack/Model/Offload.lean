import FStack.Model.PacketFilter
import Mathlib.Logic.Function.Basic

/-!
# Offload metadata of a transmitted packet

`ff_mbuf_tx_offload` (`lib/ff_veth.c`) reads what the stack asks of the NIC for a packet.  Two
functions write it into the `rte_mbuf` at the head of the packet: `ff_offload_set`
(`lib/ff_memory.c`), in the build with the page array, and the end of `ff_dpdk_if_send`
(`lib/ff_dpdk_if.c`), in the other build.

The frame is read and written through the data pointer of the head, and its bytes are a function on
all offsets from there.
-/

set_option autoImplicit false

namespace FStack.Model

def RTE_ETHER_HDR_LEN : ℕ := 14

def RTE_MBUF_F_TX_UDP_SEG : BitVec 64 := 1#64 <<< 42
def RTE_MBUF_F_TX_TCP_SEG : BitVec 64 := 1#64 <<< 50
def RTE_MBUF_F_TX_TCP_CKSUM : BitVec 64 := 1#64 <<< 52
def RTE_MBUF_F_TX_UDP_CKSUM : BitVec 64 := 3#64 <<< 52
def RTE_MBUF_F_TX_IP_CKSUM : BitVec 64 := 1#64 <<< 54
def RTE_MBUF_F_TX_IPV4 : BitVec 64 := 1#64 <<< 55
def RTE_MBUF_F_TX_IPV6 : BitVec 64 := 1#64 <<< 56

def CSUM_IP : BitVec 32 := 0x1
def CSUM_UDP : BitVec 32 := 0x2
def CSUM_TCP : BitVec 32 := 0x4
def CSUM_TSO : BitVec 32 := 0x1010

/-- The fields of the packet header of a BSD mbuf that say what to offload. -/
structure TxPktHdr where
  csum_flags : BitVec 32
  tso_segsz : BitVec 16

/-- `struct ff_tx_offload`, but for SCTP, which nothing reads.
SOURCE: lib/ff_dpdk_if.h:47-53 -/
structure FfTxOffload where
  ip_csum : Bool
  tcp_csum : Bool
  udp_csum : Bool
  tso_seg_size : BitVec 16

/-- `ff_mbuf_tx_offload`, of a zeroed `struct ff_tx_offload`.
SOURCE: lib/ff_veth.c:269-293 -/
def ffMbufTxOffload (m : TxPktHdr) : FfTxOffload :=
  { ip_csum := m.csum_flags &&& CSUM_IP ≠ 0
    tcp_csum := m.csum_flags &&& CSUM_TCP ≠ 0
    udp_csum := m.csum_flags &&& CSUM_UDP ≠ 0
    tso_seg_size := if m.csum_flags &&& CSUM_TSO ≠ 0 then m.tso_segsz else 0 }

/-- The head of a packet: the fields that are written, with their widths, and the bytes at its data
pointer. -/
structure HeadMbuf where
  ol_flags : BitVec 64
  l2_len : BitVec 7
  l3_len : BitVec 9
  l4_len : BitVec 8
  tso_segsz : BitVec 16
  data : Memory

/-! ## The checksum of the pseudo header -/

/-- `__rte_raw_cksum`, of two bytes after the other.
SOURCE: dpdk/lib/net/rte_cksum.h:42-64 -/
def rteRawCksumSum : List UInt8 → ℕ → ℕ
  | a :: b :: rest, sum => rteRawCksumSum rest ((sum + a.toNat + b.toNat * 256) % 2 ^ 32)
  | [a], sum => (sum + a.toNat) % 2 ^ 32
  | [], sum => sum

/-- `__rte_raw_cksum_reduce`.
SOURCE: dpdk/lib/net/rte_cksum.h:75-81 -/
def rteRawCksumReduce (sum : ℕ) : ℕ :=
  let sum := sum / 65536 + sum % 65536
  let sum := sum / 65536 + sum % 65536
  sum % 65536

/-- `rte_ipv4_phdr_cksum`, for the header at `iph`.
SOURCE: dpdk/lib/net/rte_ip4.h:219-244 -/
def rteIpv4PhdrCksum (mem : Memory) (iph : ℕ) (ol_flags : BitVec 64) : ℕ :=
  let len :=
    if ol_flags &&& (RTE_MBUF_F_TX_TCP_SEG ||| RTE_MBUF_F_TX_UDP_SEG) ≠ 0 then 0
    else sub16 (be16 mem (iph + 2)) ((mem iph).toNat % 16 * 4)
  rteRawCksumReduce (rteRawCksumSum
    [mem (iph + 12), mem (iph + 13), mem (iph + 14), mem (iph + 15), mem (iph + 16), mem (iph + 17),
      mem (iph + 18), mem (iph + 19), 0, mem (iph + 9), UInt8.ofNat (len / 256), UInt8.ofNat len] 0)

/-! ## The parts that the two functions share -/

/-- The address of the IP header, and its length.
SOURCE: lib/ff_memory.c:322-323, lib/ff_dpdk_if.c:2276-2277 -/
def offloadIphLen (data : Memory) : ℕ := (data RTE_ETHER_HDR_LEN).toNat % 16 * 4

/-- SOURCE: lib/ff_memory.c:318-329, lib/ff_dpdk_if.c:2272-2282 -/
def offloadIpCsum (offload : FfTxOffload) (head : HeadMbuf) : HeadMbuf :=
  if offload.ip_csum then
    { head with
      ol_flags := head.ol_flags ||| (RTE_MBUF_F_TX_IP_CKSUM ||| RTE_MBUF_F_TX_IPV4)
      l2_len := BitVec.ofNat 7 RTE_ETHER_HDR_LEN
      l3_len := BitVec.ofNat 9 (offloadIphLen head.data) }
  else head

/-- SOURCE: lib/ff_memory.c:337-341, lib/ff_dpdk_if.c:2296-2300 -/
def offloadTcpCsum (offload : FfTxOffload) (iph_len : ℕ) (head : HeadMbuf) : HeadMbuf :=
  if offload.tcp_csum then
    { head with
      ol_flags := head.ol_flags ||| RTE_MBUF_F_TX_TCP_CKSUM
      l2_len := BitVec.ofNat 7 RTE_ETHER_HDR_LEN
      l3_len := BitVec.ofNat 9 iph_len }
  else head

/-- `tcph->cksum = cksum`, for the header at `tcph`. -/
def setTcpCksum (data : Memory) (tcph cksum : ℕ) : Memory :=
  Function.update (Function.update data (tcph + 16) (UInt8.ofNat cksum)) (tcph + 17)
    (UInt8.ofNat (cksum / 256))

/-- SOURCE: lib/ff_memory.c:358-368, lib/ff_dpdk_if.c:2317-2327 -/
def offloadTso (offload : FfTxOffload) (iph_len : ℕ) (head : HeadMbuf) : HeadMbuf :=
  if offload.tso_seg_size ≠ 0 then
    let tcph := RTE_ETHER_HDR_LEN + iph_len
    let tcph_len := (head.data (tcph + 12)).toNat / 16 * 4
    { head with
      data := setTcpCksum head.data tcph
        (rteIpv4PhdrCksum head.data RTE_ETHER_HDR_LEN RTE_MBUF_F_TX_TCP_SEG)
      ol_flags := head.ol_flags ||| RTE_MBUF_F_TX_TCP_SEG
      l4_len := BitVec.ofNat 8 tcph_len
      tso_segsz := offload.tso_seg_size }
  else head

/-- SOURCE: lib/ff_memory.c:370-374, lib/ff_dpdk_if.c:2329-2333 -/
def offloadUdpCsum (offload : FfTxOffload) (iph_len : ℕ) (head : HeadMbuf) : HeadMbuf :=
  if offload.udp_csum then
    { head with
      ol_flags := head.ol_flags ||| RTE_MBUF_F_TX_UDP_CKSUM
      l2_len := BitVec.ofNat 7 RTE_ETHER_HDR_LEN
      l3_len := BitVec.ofNat 9 iph_len }
  else head

/-! ## The two functions -/

/-- `ff_offload_set`.
SOURCE: lib/ff_memory.c:311-376 -/
def ffOffloadSet (tx_csum_l4 : Bool) (m : TxPktHdr) (head : HeadMbuf) : HeadMbuf :=
  let offload := ffMbufTxOffload m
  let head := offloadIpCsum offload head
  if tx_csum_l4 then
    let iph_len := offloadIphLen head.data
    let head := offloadTcpCsum offload iph_len head
    let head := offloadTso offload iph_len head
    offloadUdpCsum offload iph_len head
  else head

/-- The version of the IP header.
SOURCE: lib/ff_dpdk_if.c:2290-2294 -/
def offloadVersion (head : HeadMbuf) : HeadMbuf :=
  if (head.data RTE_ETHER_HDR_LEN).toNat / 16 = 4 then
    { head with ol_flags := head.ol_flags ||| RTE_MBUF_F_TX_IPV4 }
  else { head with ol_flags := head.ol_flags ||| RTE_MBUF_F_TX_IPV6 }

/-- The offload code of `ff_dpdk_if_send`.
SOURCE: lib/ff_dpdk_if.c:2267-2334 -/
def sendOffload (tx_csum_l4 : Bool) (m : TxPktHdr) (head : HeadMbuf) : HeadMbuf :=
  let offload := ffMbufTxOffload m
  let head := offloadIpCsum offload head
  if tx_csum_l4 then
    let iph_len := offloadIphLen head.data
    let head := offloadVersion head
    let head := offloadTcpCsum offload iph_len head
    let head := offloadTso offload iph_len head
    offloadUdpCsum offload iph_len head
  else head

end FStack.Model
