import FStack.Model.RssHash
import Mathlib.Logic.Function.Basic

/-!
# The RSS key

The choice of the hash key in `init_port_start` and its rewriting by
`ff_rss_thash_build_key` (`lib/ff_dpdk_if.c`), with the parts of `rte_thash`
(`dpdk/lib/hash/rte_thash.c`) that decide what is written: a helper's window of the key
is overwritten with the output of a shift register.

`ff_rss_thash_build_key` adds one helper to each of two fresh contexts, so of
`rte_thash_add_helper` only the path for an empty list of helpers is taken.
A key is what its pointer leads to.
-/

set_option autoImplicit false

namespace FStack.Model

/-- SOURCE: lib/ff_dpdk_if.c:100-108 -/
def defaultRsskey52bytes : List UInt8 :=
  [0x44, 0x39, 0x79, 0x6b, 0xb5, 0x4c, 0x50, 0x23, 0xb6, 0x75, 0xea, 0x5b, 0x12, 0x4f, 0x9f, 0x30,
    0xb8, 0xa2, 0xc0, 0x3d, 0xdf, 0xdc, 0x4d, 0x02, 0xa0, 0x8c, 0x9b, 0x33, 0x4a, 0xf6, 0x4a, 0x4c,
    0x05, 0xc6, 0xfa, 0x34, 0x39, 0x58, 0xd8, 0x55, 0x7d, 0x99, 0x58, 0x3a, 0xe1, 0x38, 0xc9, 0x2e,
    0x81, 0x15, 0x03, 0x66]

/-- SOURCE: lib/ff_dpdk_if.c:110-118 -/
def symmetricRsskey : List UInt8 :=
  [0x6d, 0x5a, 0x6d, 0x5a, 0x6d, 0x5a, 0x6d, 0x5a, 0x6d, 0x5a, 0x6d, 0x5a, 0x6d, 0x5a, 0x6d, 0x5a,
    0x6d, 0x5a, 0x6d, 0x5a, 0x6d, 0x5a, 0x6d, 0x5a, 0x6d, 0x5a, 0x6d, 0x5a, 0x6d, 0x5a, 0x6d, 0x5a,
    0x6d, 0x5a, 0x6d, 0x5a, 0x6d, 0x5a, 0x6d, 0x5a, 0x6d, 0x5a, 0x6d, 0x5a, 0x6d, 0x5a, 0x6d, 0x5a,
    0x6d, 0x5a, 0x6d, 0x5a]

/-- `struct thash_lfsr`, as far as bits are taken from it in the forward direction. -/
structure Lfsr where
  deg : ℕ
  poly : ℕ
  state : ℕ

/-- `alloc_lfsr`: `poly` is what `thash_get_rand_poly` returns, and `rand` the random number with
which its loop ends.
SOURCE: dpdk/lib/hash/rte_thash.c:159-188 -/
def allocLfsr (poly_degree poly rand : ℕ) : Lfsr :=
  ⟨poly_degree, poly, rand &&& ((1 <<< poly_degree) - 1)⟩

/-- `rte_popcount32(x) & 0x1`. -/
def parity32 (x : ℕ) : Bool := (List.range 32).foldl (fun acc i => acc ^^ x.testBit i) false

/-- `get_bit_lfsr`.
SOURCE: dpdk/lib/hash/rte_thash.c:103-119 -/
def getBitLfsr (l : Lfsr) : Bool × Lfsr :=
  let bit := (parity32 (l.state &&& l.poly)).toNat
  (l.state.testBit 0,
    { l with state := ((l.state >>> 1) ||| (bit <<< (l.deg - 1))) &&& ((1 <<< l.deg) - 1) })

/-- `set_bit`; bits are counted from a byte's most significant one.
SOURCE: dpdk/lib/hash/rte_thash.c:356-368 -/
def setBit (key : ℕ → UInt8) (bit : Bool) (pos : ℕ) : ℕ → UInt8 :=
  let bit_idx := 7 - pos % 8
  let tmp := (key (pos / 8)).toBitVec &&& ~~~ (1#8 <<< bit_idx)
  Function.update key (pos / 8)
    (UInt8.ofBitVec (tmp ||| ((BitVec.ofBool bit).setWidth 8 <<< bit_idx)))

/-- The loop of `generate_subkey` from left to right, for `n` bits from `pos` on.
SOURCE: dpdk/lib/hash/rte_thash.c:390-394 -/
def writeSubkey : ℕ → (ℕ → UInt8) → Lfsr → ℕ → ℕ → UInt8
  | 0, key, _, _ => key
  | n + 1, key, l, pos =>
    writeSubkey n (setBit key (getBitLfsr l).1 pos) (getBitLfsr l).2 (pos + 1)

/-- What the construction of one context depends on besides the key: whether memory and name are
available, the random numbers of `alloc_lfsr`, and, in a secondary process, the key of the context
that `rte_thash_find_existing` and `rte_thash_get_helper` find. -/
structure ThashEnv where
  ctx_mem : Bool
  helper_mem : Bool
  poly : ℕ
  rand : ℕ
  existing : Option (ℕ → UInt8)

def TOEPLITZ_HASH_LEN : ℕ := 32

/-- `rte_thash_add_helper` on a context without helpers: the key it leaves, or `none` on failure.
SOURCE: dpdk/lib/hash/rte_thash.c:374-402, dpdk/lib/hash/rte_thash.c:544-631 -/
def rteThashAddHelper (key_len reta_sz_log : ℕ) (key : ℕ → UInt8) (len offset : ℕ)
    (env : ThashEnv) : Option (ℕ → UInt8) :=
  if len < reta_sz_log ∨ key_len * 8 < offset + len + TOEPLITZ_HASH_LEN - 1 then none
  else if env.helper_mem = false then none
  else
    let req_bits := len + TOEPLITZ_HASH_LEN - 1
    if 2 ^ reta_sz_log - 1 < req_bits then none
    else some (writeSubkey req_bits key (allocLfsr reta_sz_log env.poly env.rand) offset)

/-- A context with its helper: built in the primary process, found in a secondary one.
SOURCE: dpdk/lib/hash/rte_thash.c:207-295, lib/ff_dpdk_if.c:3052-3088 -/
def thashContext (is_primary : Bool) (key_len reta_sz_log : ℕ) (key : ℕ → UInt8) (offset : ℕ)
    (env : ThashEnv) : Option (ℕ → UInt8) :=
  if is_primary then
    if key_len = 0 ∨ ¬ (2 ≤ reta_sz_log ∧ reta_sz_log ≤ 16) ∨ env.ctx_mem = false then none
    else rteThashAddHelper key_len reta_sz_log key 16 offset env
  else env.existing

/-- The globals `rsskey` (`none` for `NULL`), `rsskey_len` and `ff_rss_key_built`. -/
structure KeyState where
  rsskey : Option (ℕ → UInt8)
  rsskey_len : ℕ
  ff_rss_key_built : Bool

/-- What `init_port_start` reads about the RSS of a port.  `thash_adjust` is true when there is no
`rss_check` section; `key_mem` says whether `rte_malloc` gives the buffer of the new key. -/
structure PortInit where
  flow_type_rss_offloads : Bool
  hash_key_size : ℕ
  reta_size : UInt16
  nb_queues : ℕ
  symmetric_rss : Bool
  thash_adjust : Bool
  is_primary : Bool
  v4 : ThashEnv
  v6 : ThashEnv
  key_mem : Bool

/-- `ff_rss_reta_log2`.
SOURCE: lib/ff_dpdk_if.c:2978-2987 -/
def ffRssRetaLog2 (reta_size : UInt16) : ℕ := Nat.log2 reta_size.toNat

/-- `ff_rss_thash_build_key`, as far as the key goes.  The IPv6 context starts from the key that the
IPv4 helper has rewritten, and the key of the last context built is published.
SOURCE: lib/ff_dpdk_if.c:3025-3180 -/
def ffRssThashBuildKey (st : KeyState) (p : PortInit) : KeyState :=
  match st.rsskey with
  | none => st
  | some key =>
    if p.thash_adjust = false ∨ st.rsskey_len = 0 then st
    else if p.reta_size.toNat < 2 ∨ st.ff_rss_key_built = true then st
    else if 64 < st.rsskey_len then st
    else
      let reta_log2 := ffRssRetaLog2 p.reta_size
      match thashContext p.is_primary st.rsskey_len reta_log2 key 80 p.v4 with
      | none => st
      | some key_v4 =>
        let pub_key :=
          match thashContext p.is_primary st.rsskey_len reta_log2 key_v4 256 p.v6 with
          | some key_final => key_final
          | none => key_v4
        if p.key_mem then ⟨some pub_key, st.rsskey_len, true⟩ else st

/-- The RSS block of `init_port_start`.
SOURCE: lib/ff_dpdk_if.c:730-771 -/
def initPortRss (st : KeyState) (p : PortInit) : KeyState :=
  if p.flow_type_rss_offloads then
    let st : KeyState := match p.hash_key_size with
      | 40 => { st with rsskey := some (keyBytes defaultRsskey40bytes), rsskey_len := 40 }
      | 52 => { st with rsskey := some (keyBytes defaultRsskey52bytes), rsskey_len := 52 }
      | _ => { st with rsskey := none, rsskey_len := 0 }
    let st := if p.symmetric_rss ∧ p.hash_key_size ≠ 0 then
        { st with rsskey := some (keyBytes symmetricRsskey) } else st
    if 1 < p.nb_queues ∧ p.thash_adjust then ffRssThashBuildKey st p else st
  else st

/-!
## The contexts behind the RSS key

`ff_rss_thash_build_key` (`lib/ff_dpdk_if.c`) with everything that can fail in it, in the
primary process and in a secondary one.  The two contexts of a port live in memory that the
processes share: the primary makes them, and frees them again on some of its ways out, and a
secondary process finds what is left.  The globals of each process are its own.

What the calls of `rte_thash` and `rte_malloc` answer is a parameter.
-/

/-- What the calls about one context answer in one process.  `add_helper` is the key that
`rte_thash_add_helper` leaves in a new context, and `none` when it fails. -/
structure ThashCalls where
  init_ctx : Bool
  add_helper : (ℕ → UInt8) → Option (ℕ → UInt8)
  get_helper : Bool
  get_key : Bool

/-- What the calls of one run of `ff_rss_thash_build_key` answer; `key_mem` is `rte_malloc`. -/
structure BuildCalls where
  v4 : ThashCalls
  v6 : ThashCalls
  key_mem : Bool

/-- The keys of the contexts `ff_rss_thash_%u` and `ff_rss_thash6_%u` of a port, as far as the
contexts exist. -/
structure ThashList where
  v4 : Option (ℕ → UInt8)
  v6 : Option (ℕ → UInt8)

/-- The globals of a process, those with one entry a port for one port, and the contexts of that
port.  Of a context `rss_thash_ctx` points to, the key is kept. -/
structure BuildState extends KeyState where
  rss_thash_ctx : Option (ℕ → UInt8)
  rss_thash_ready : Bool
  rss_thash6_ctx : Option (ℕ → UInt8)
  rss_thash6_ready : Bool
  contexts : ThashList

/-- The steps from `rte_thash_init_ctx` or `rte_thash_find_existing` to `rte_thash_get_key`, which
are the same for both contexts: the key that `rte_thash_get_key` returns, if every call succeeds,
and the context under the name afterwards.  A name that is taken makes `rte_thash_init_ctx` fail,
and a secondary process frees nothing.
SOURCE: lib/ff_dpdk_if.c:3054-3098, lib/ff_dpdk_if.c:3106-3138 -/
def openContext (is_primary : Bool) (entry : Option (ℕ → UInt8)) (key : ℕ → UInt8)
    (c : ThashCalls) : Option (ℕ → UInt8) × Option (ℕ → UInt8) :=
  let ctx :=
    if is_primary then
      if entry.isSome || !c.init_ctx then none else c.add_helper key
    else entry
  match ctx with
  | none => (none, entry)
  | some key =>
    if c.get_helper && c.get_key then (some key, some key)
    else (none, if is_primary then none else entry)

namespace BuildState

/-- What is left of `ff_rss_thash_build_key` from the label `publish` on.
SOURCE: lib/ff_dpdk_if.c:3140-3178 -/
def publish (s : BuildState) (key_mem : Bool) (pub_key : ℕ → UInt8) : BuildState :=
  if key_mem then
    { s with rsskey := some pub_key, ff_rss_key_built := true }
  else
    { s with rss_thash_ready := false, rss_thash6_ready := false }

/-- The contexts are opened and the key is published, past the tests at the start.
SOURCE: lib/ff_dpdk_if.c:3050-3180 -/
def buildContexts (s : BuildState) (is_primary : Bool) (c : BuildCalls) (key : ℕ → UInt8) :
    BuildState :=
  let v4 := openContext is_primary s.contexts.v4 key c.v4
  match v4.1 with
  | none => { s with contexts := { s.contexts with v4 := v4.2 } }
  | some key_v4 =>
    let v6 := openContext is_primary s.contexts.v6 key_v4 c.v6
    let s := { s with
      rss_thash_ctx := some key_v4
      rss_thash_ready := true
      contexts := ⟨v4.2, v6.2⟩ }
    match v6.1 with
    | none => s.publish c.key_mem key_v4
    | some key_final =>
      publish { s with rss_thash6_ctx := some key_final, rss_thash6_ready := true }
        c.key_mem key_final

/-- SOURCE: lib/ff_dpdk_if.c:3025-3180 -/
def ffRssThashBuildKey (s : BuildState) (is_primary thash_adjust : Bool) (reta_size : UInt16)
    (c : BuildCalls) : BuildState :=
  let s := { s with rss_thash_ready := false, rss_thash6_ready := false }
  match s.rsskey with
  | none => s
  | some key =>
    if thash_adjust = false ∨ s.rsskey_len = 0 then s
    else if reta_size.toNat < 2 ∨ s.ff_rss_key_built = true then s
    else if 64 < s.rsskey_len then s
    else s.buildContexts is_primary c key

/-- A process before the call for its first port, whose key has been chosen. -/
def start (key : ℕ → UInt8) (len : ℕ) (contexts : ThashList) : BuildState where
  rsskey := some key
  rsskey_len := len
  ff_rss_key_built := false
  rss_thash_ctx := none
  rss_thash_ready := false
  rss_thash6_ctx := none
  rss_thash6_ready := false
  contexts := contexts

/-- The primary process, which finds no contexts. -/
def primary (key : ℕ → UInt8) (len : ℕ) (thash_adjust : Bool) (reta_size : UInt16)
    (c : BuildCalls) : BuildState :=
  (start key len ⟨none, none⟩).ffRssThashBuildKey true thash_adjust reta_size c

/-- A secondary process, which finds the contexts that the primary left. -/
def secondary (key : ℕ → UInt8) (len : ℕ) (thash_adjust : Bool) (reta_size : UInt16)
    (p c : BuildCalls) : BuildState :=
  (start key len (primary key len thash_adjust reta_size p).contexts).ffRssThashBuildKey
    false thash_adjust reta_size c

end BuildState

end FStack.Model
