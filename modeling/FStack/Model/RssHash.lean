import Mathlib.Algebra.Ring.Nat

/-!
# Receive side scaling

The software copy of the NIC's hash: `toeplitz_hash`, and the tests
`ff_rss_check` and `ff_rss_check6` (`lib/ff_dpdk_if.c`) that say whether the packets
of a flow arrive on this process's queue.

Addresses and ports are the integers that the code holds them in.  The hash reads
their bytes in memory order, and the machine is little-endian.
-/

set_option autoImplicit false

namespace FStack.Model

/-- The bytes of a `uint32_t` in memory. -/
def bytes32 (x : UInt32) : List UInt8 :=
  [UInt8.ofNat x.toNat, UInt8.ofNat (x.toNat / 256), UInt8.ofNat (x.toNat / 65536),
    UInt8.ofNat (x.toNat / 16777216)]

/-- The bytes of a `uint16_t` in memory. -/
def bytes16 (x : UInt16) : List UInt8 := [UInt8.ofNat x.toNat, UInt8.ofNat (x.toNat / 256)]

/-- The two bytes change places. -/
def htons (x : UInt16) : UInt16 := UInt16.ofNat (x.toNat % 256 * 256 + x.toNat / 256)

theorem htons_toNat (x : UInt16) : (htons x).toNat = x.toNat % 256 * 256 + x.toNat / 256 := by
  have := x.toNat_lt
  rw [htons, UInt16.toNat_ofNat']
  omega

theorem htons_htons (x : UInt16) : htons (htons x) = x := by
  have := x.toNat_lt
  rw [← UInt16.toNat_inj, htons_toNat, htons_toNat]
  omega

/-- An IPv6 address. -/
abbrev In6Addr := Fin 16 → UInt8

/-- Bit `b` of a byte, counted from the most significant one: `x & (1 << (7 - b))`. -/
def byteBit (x : UInt8) (b : ℕ) : Bool := x.toBitVec.getMsbD b

/-- The two variables of `toeplitz_hash`. -/
structure ToeplitzState where
  hash : BitVec 32
  v : BitVec 32

/-- The body of the inner loop of `toeplitz_hash`, for bit `b` of the data byte `x` at
index `i`, which is an `u_int`.
SOURCE: lib/ff_dpdk_if.c:2621-2628 -/
def toeplitzBit (keylen : ℕ) (key : ℕ → UInt8) (i : ℕ) (x : UInt8) (st : ToeplitzState)
    (b : ℕ) : ToeplitzState :=
  let hash := if byteBit x b then st.hash ^^^ st.v else st.hash
  let v := st.v <<< 1
  { hash := hash
    v := if (i + 4) % 2 ^ 32 < keylen && byteBit (key ((i + 4) % 2 ^ 32)) b then v ||| 1 else v }

/-- The loops of `toeplitz_hash`, from data byte `i` on. -/
def toeplitzLoop (keylen : ℕ) (key : ℕ → UInt8) : ℕ → List UInt8 → ToeplitzState → ToeplitzState
  | _, [], st => st
  | i, x :: data, st =>
    toeplitzLoop keylen key (i + 1) data ((List.range 8).foldl (toeplitzBit keylen key i x) st)

/-- `toeplitz_hash`.  The first four key bytes are read whatever `keylen` is.
SOURCE: lib/ff_dpdk_if.c:2610-2631 -/
def toeplitzHash (keylen : ℕ) (key : ℕ → UInt8) (data : List UInt8) : BitVec 32 :=
  let byte (n : ℕ) : BitVec 32 := (key n).toBitVec.setWidth 32
  let v := (byte 0 <<< 24) + (byte 1 <<< 16) + (byte 2 <<< 8) + byte 3
  (toeplitzLoop keylen key 0 data ⟨0, v⟩).hash

/-- SOURCE: lib/ff_dpdk_if.c:90-96 -/
def defaultRsskey40bytes : List UInt8 :=
  [0xd1, 0x81, 0xc6, 0x2c, 0xf7, 0xf4, 0xdb, 0x5b, 0x19, 0x83, 0xa2, 0xfc, 0x94, 0x3e, 0x1a, 0xdb,
    0xd9, 0x38, 0x9e, 0x6b, 0xd1, 0x03, 0x9c, 0x2c, 0xa7, 0x44, 0x99, 0xad, 0x59, 0x3d, 0x56, 0xd9,
    0xf3, 0x25, 0x3c, 0x06, 0x2a, 0xdc, 0x1f, 0xfc]

/-- The bytes at a key pointer. -/
def keyBytes (key : List UInt8) (n : ℕ) : UInt8 := key.getD n 0

/-- The settings that the RSS tests read: the hash key, and for each port the number of
queues (`lcore_conf.nb_queue_list`), the size of the redirection table and this process's
queue (`lcore_conf.tx_queue_id`). -/
structure RssConf where
  rsskey_len : ℕ
  rsskey : ℕ → UInt8
  nb_queue_list : ℕ → ℕ
  rss_reta_size : ℕ → ℕ
  tx_queue_id : ℕ → ℕ

/-- `((hash & (reta_size - 1)) % nb_queues) == queueid`.  For a table size of 0 the mask is all
ones. -/
def landsOnQueue (conf : RssConf) (port_id : ℕ) (hash : BitVec 32) : Bool :=
  (hash &&& (BitVec.ofNat 32 (conf.rss_reta_size port_id) - 1)).toNat % conf.nb_queue_list port_id
    == conf.tx_queue_id port_id

/-- `ff_rss_check` on the port behind `softc`.
SOURCE: lib/ff_dpdk_if.c:2940-2976 -/
def ffRssCheck (conf : RssConf) (port_id : ℕ) (saddr daddr : UInt32) (sport dport : UInt16) :
    Bool :=
  if conf.nb_queue_list port_id ≤ 1 then true
  else
    let data := bytes32 saddr ++ bytes32 daddr ++ bytes16 sport ++ bytes16 dport
    landsOnQueue conf port_id (toeplitzHash conf.rsskey_len conf.rsskey data)

/-- `ff_rss_check6`.
SOURCE: lib/ff_dpdk_if.c:3437-3468 -/
def ffRssCheck6 (conf : RssConf) (port_id : ℕ) (saddr6 daddr6 : In6Addr) (sport dport : UInt16) :
    Bool :=
  if conf.nb_queue_list port_id ≤ 1 then true
  else
    let data := List.ofFn saddr6 ++ List.ofFn daddr6 ++ bytes16 sport ++ bytes16 dport
    landsOnQueue conf port_id (toeplitzHash conf.rsskey_len conf.rsskey data)

end FStack.Model
