import FStack.Prelude.ByteMemory
import Mathlib.Algebra.Order.Ring.Int

/-!
# The capture files

`ff_enable_pcap` opens a capture file and writes its header, and `ff_dump_packets` appends a packet to it
(`lib/ff_dpdk_pcap.c`).  When the file has become long enough, it is closed and the next one is opened; the names of
ten files are used in turn.

The length of the open file is counted in 32 bits.  The length up to which packets are captured is a parameter of
`ff_dump_packets` that the function shortens for a short packet.
-/

set_option autoImplicit false

namespace FStack.Model

open FStack.Prelude

def PCAP_FILE_NUM : ℕ := 10

def PCAP_MAGIC_USEC : ℕ := 0xA1B2C3D4

def PCAP_MAGIC_NSEC : ℕ := 0xA1B23C4D

/-- What the caller passes from the configuration.
SOURCE: lib/ff_config.h:348-354, lib/ff_dpdk_if.c:371, 1750, 2147-2148 -/
structure PcapConf where
  snap_len : ℕ
  save_len : ℕ
  timestamp_precision : ℕ
  snap_lt : snap_len < 2 ^ 16
  save_lt : save_len < 2 ^ 32

/-- A packet: the data of its segments, and the time at which it is dumped. -/
structure PcapPkt where
  sec : ℕ
  usec_or_nsec : ℕ
  pkt_len : ℕ
  segs : List (List UInt8)
  pkt_len_eq : (segs.map List.length).sum = pkt_len
  pkt_len_lt : pkt_len < 2 ^ 32

/-- `struct pcap_file_header`.
SOURCE: lib/ff_dpdk_pcap.c:38-46, 71-82 -/
def pcapFileHeader (snap_len timestamp_precision : ℕ) : List UInt8 :=
  leBytes 4 (if timestamp_precision ≠ 0 then PCAP_MAGIC_NSEC else PCAP_MAGIC_USEC) ++ leBytes 2 0x0002 ++
    leBytes 2 0x0004 ++ leBytes 4 0 ++ leBytes 4 0 ++ leBytes 4 snap_len ++ leBytes 4 1

/-- `struct pcap_pkthdr`.
SOURCE: lib/ff_dpdk_pcap.c:48-53, 101-115 -/
def pcapPkthdr (sec usec_or_nsec caplen len : ℕ) : List UInt8 :=
  leBytes 4 sec ++ leBytes 4 usec_or_nsec ++ leBytes 4 caplen ++ leBytes 4 len

/-- The contents of the open file and of the files that were closed, and the counters. -/
structure PcapState where
  g_pcap_fp : Option (List UInt8)
  closed : List (List UInt8)
  seq : ℕ
  g_flen : ℕ

/-- SOURCE: lib/ff_dpdk_pcap.c:55-57 -/
def PcapState.init : PcapState := ⟨none, [], 0, 0⟩

/-- SOURCE: lib/ff_dpdk_pcap.c:59-86 -/
def ffEnablePcap (snap_len timestamp_precision : ℕ) (s : PcapState) : PcapState :=
  { s with g_pcap_fp := some (pcapFileHeader snap_len timestamp_precision), g_flen := 24 }

/-- The loop over the segments: what is written, and `out_len` after it.
SOURCE: lib/ff_dpdk_pcap.c:118-125 -/
def writeSegs (snap_len : ℕ) : ℕ → List (List UInt8) → List UInt8 × ℕ
  | out_len, [] => ([], out_len)
  | out_len, data :: next =>
    let wr_len := (snap_len + (2 ^ 32 - out_len)) % 2 ^ 32
    let wr_len := if wr_len > data.length then data.length else wr_len
    let rest := writeSegs snap_len ((out_len + wr_len) % 2 ^ 32) next
    (data.take wr_len ++ rest.1, rest.2)

/-- SOURCE: lib/ff_dpdk_pcap.c:88-137 -/
def ffDumpPackets (conf : PcapConf) (s : PcapState) (pkt : PcapPkt) : PcapState × ℤ :=
  match s.g_pcap_fp with
  | none => (s, -1)
  | some fp =>
    let snap_len := if pkt.pkt_len < conf.snap_len then pkt.pkt_len else conf.snap_len
    let fp := fp ++ pcapPkthdr pkt.sec pkt.usec_or_nsec snap_len pkt.pkt_len
    let g_flen := (s.g_flen + 16) % 2 ^ 32
    let out := writeSegs snap_len 0 pkt.segs
    let fp := fp ++ out.1
    let g_flen := (g_flen + out.2) % 2 ^ 32
    if g_flen ≥ conf.save_len then
      let seq := if s.seq + 1 ≥ PCAP_FILE_NUM then 0 else s.seq + 1
      -- the next file gets the length to which this packet was cut
      (ffEnablePcap snap_len conf.timestamp_precision { s with closed := s.closed ++ [fp], seq := seq }, 0)
    else ({ s with g_pcap_fp := some fp, g_flen := g_flen }, 0)

/-- The state after a packet was dumped. -/
def pcapStep (conf : PcapConf) (s : PcapState) (pkt : PcapPkt) : PcapState := (ffDumpPackets conf s pkt).1

/-- The files of a run: those that were closed, and the open one. -/
def PcapState.files (s : PcapState) : List (List UInt8) := s.closed ++ s.g_pcap_fp.toList

/-- The state when the packets were dumped, one after the other. -/
def pcapRun (conf : PcapConf) (pkts : List PcapPkt) : PcapState :=
  pkts.foldl (pcapStep conf) (ffEnablePcap conf.snap_len conf.timestamp_precision PcapState.init)

end FStack.Model
