import FStack.Analysis.Toeplitz
import FStack.Model.RssKey

/-!
# What is left of the symmetric key

`symmetric_rsskey` repeats every 16 bits, which makes the two directions of an IPv4 flow
hash alike.  The helper of `ff_rss_thash_build_key` then overwrites bits 80 to 126, which
the hash of an IPv4 flow reads, with the output of a shift register of at most 15 bits.
No such register repeats the key's pattern (`lfsrBit_ne_symmetric`), so the key keeps its
symmetry exactly if it is not rewritten.
-/

set_option autoImplicit false

namespace FStack.Analysis

open FStack.Model FStack.Prelude

variable {len : ℕ} {key : ℕ → UInt8} {p : PortInit} {st : KeyState}

/-! ## The shift register -/

/-- Bit `i` of a register's output. -/
def lfsrBit : Lfsr → ℕ → Bool
  | l, 0 => (getBitLfsr l).1
  | l, i + 1 => lfsrBit (getBitLfsr l).2 i

theorem parity32_eq (x : ℕ) : parity32 x = xorSum x.testBit 32 := by
  have h : ∀ n, (List.range n).foldl (fun acc i => acc ^^ x.testBit i) false =
      xorSum x.testBit n := by
    intro n
    induction n with
    | zero => rfl
    | succ n ih => rw [List.range_succ, List.foldl_append, ih, xorSum, List.foldl_cons, List.foldl_nil]
  exact h 32

/-- The register after one bit: the bits move down, and the parity of the tapped ones
enters at the top.
SOURCE: dpdk/lib/hash/rte_thash.c:103-119 -/
theorem getBitLfsr_testBit (l : Lfsr) (j : ℕ) (hj : j < l.deg) :
    (getBitLfsr l).2.state.testBit j =
      (l.state.testBit (j + 1) || (decide (j = l.deg - 1) && parity32 (l.state &&& l.poly))) := by
  have hmask : ((1 <<< l.deg) - 1).testBit j = true := by
    rw [Nat.one_shiftLeft, Nat.testBit_two_pow_sub_one]
    exact decide_eq_true hj
  have htop : ((parity32 (l.state &&& l.poly)).toNat <<< (l.deg - 1)).testBit j =
      (decide (j = l.deg - 1) && parity32 (l.state &&& l.poly)) := by
    rw [Nat.testBit_shiftLeft]
    by_cases h : j = l.deg - 1
    · cases parity32 (l.state &&& l.poly) <;> simp [h]
    · simp [h, show ¬ l.deg - 1 ≤ j by omega]
  simp only [getBitLfsr, Nat.testBit_and, Nat.testBit_or, Nat.testBit_shiftRight, hmask, htop,
    Bool.and_true]
  rw [Nat.add_comm 1 j]

theorem getBitLfsr_lt (l : Lfsr) : (getBitLfsr l).2.state < 2 ^ (getBitLfsr l).2.deg := by
  simp only [getBitLfsr, Nat.one_shiftLeft]
  apply Nat.and_lt_two_pow
  have := Nat.two_pow_pos l.deg
  omega

theorem allocLfsr_lt (deg poly rand : ℕ) : (allocLfsr deg poly rand).state < 2 ^ deg := by
  simp only [allocLfsr, Nat.one_shiftLeft]
  apply Nat.and_lt_two_pow
  have := Nat.two_pow_pos deg
  omega

/-- The register holds the next `deg` bits. -/
theorem lfsrBit_eq_testBit (l : Lfsr) (hl : l.state < 2 ^ l.deg) (j : ℕ) (hj : j < l.deg) :
    lfsrBit l j = l.state.testBit j := by
  induction j generalizing l with
  | zero => rfl
  | succ j ih =>
    have hstep := getBitLfsr_testBit l j (by omega)
    rw [lfsrBit, ih _ (getBitLfsr_lt l) (show j < (getBitLfsr l).2.deg from by
      simp only [getBitLfsr]; omega), hstep]
    simp [show ¬ j = l.deg - 1 by omega]

/-- The output obeys the recurrence of the polynomial. -/
theorem lfsrBit_recurrence (l : Lfsr) (hl : l.state < 2 ^ l.deg) (hd : 0 < l.deg)
    (hdeg : l.deg ≤ 32) (i : ℕ) :
    lfsrBit l (i + l.deg) = xorSum (fun j => l.poly.testBit j && lfsrBit l (i + j)) l.deg := by
  induction i generalizing l with
  | zero =>
    have hlast : lfsrBit l l.deg = (getBitLfsr l).2.state.testBit (l.deg - 1) := by
      obtain ⟨d, hd'⟩ : ∃ d, l.deg = d + 1 := ⟨l.deg - 1, by omega⟩
      rw [hd', lfsrBit]
      exact lfsrBit_eq_testBit _ (getBitLfsr_lt l) d (by simp only [getBitLfsr]; omega)
    have hout : l.state.testBit l.deg = false := Nat.testBit_lt_two_pow hl
    rw [Nat.zero_add, hlast, getBitLfsr_testBit l _ (by omega), Nat.sub_add_cancel (by omega), hout,
      Bool.false_or, decide_eq_true rfl, Bool.true_and, parity32_eq,
      show 32 = l.deg + (32 - l.deg) by omega, xorSum_add]
    -- no tap reads above the register
    have hhigh : xorSum (fun i => (l.state &&& l.poly).testBit (l.deg + i)) (32 - l.deg) = false := by
      apply xorSum_eq_false
      intro i hi
      have hlt : l.state < 2 ^ (l.deg + i) :=
        Nat.lt_of_lt_of_le hl (Nat.pow_le_pow_right (by omega) (by omega))
      rw [Nat.testBit_and, Nat.testBit_lt_two_pow hlt, Bool.false_and]
    rw [hhigh, Bool.xor_false]
    apply xorSum_congr
    intro j hj
    rw [Nat.testBit_and, Bool.and_comm, Nat.zero_add, lfsrBit_eq_testBit l hl j hj]
  | succ i ih =>
    have hstep := ih (getBitLfsr l).2 (getBitLfsr_lt l) hd hdeg
    rw [show i + 1 + l.deg = (i + l.deg) + 1 by omega, lfsrBit]
    refine hstep.trans ?_
    apply xorSum_congr
    intro j hj
    rw [show i + 1 + j = (i + j) + 1 by omega]
    rfl

/-! ## The rewritten window -/

theorem setByteBit_getMsbD (x : BitVec 8) (b : Bool) (i j : ℕ) (hi : i < 8) (hj : j < 8) :
    ((x &&& ~~~ (1#8 <<< (7 - i))) ||| ((BitVec.ofBool b).setWidth 8 <<< (7 - i))).getMsbD j =
      if j = i then b else x.getMsbD j := by
  have hclear : ∀ i < 8, ∀ j < 8, (1#8 <<< (7 - i)).getMsbD j = decide (j = i) := by decide
  have hset : ∀ b : Bool, ∀ i < 8, ∀ j < 8,
      ((BitVec.ofBool b).setWidth 8 <<< (7 - i)).getMsbD j = (decide (j = i) && b) := by decide
  rw [BitVec.getMsbD_or, BitVec.getMsbD_and, BitVec.getMsbD_not, hclear i hi j hj, hset b i hi j hj]
  by_cases h : j = i
  · simp [h]
  · simp [h, hj]

/-- One bit of the key changes.
SOURCE: dpdk/lib/hash/rte_thash.c:356-368 -/
theorem keyBit_setBit (key : ℕ → UInt8) (b : Bool) (pos n : ℕ) :
    keyBit (setBit key b pos) n = if n = pos then b else keyBit key n := by
  by_cases hbyte : n / 8 = pos / 8
  · rw [keyBit, setBit, hbyte, Function.update_self, byteBit,
      setByteBit_getMsbD _ _ _ _ (by omega) (by omega), keyBit, byteBit, hbyte]
    by_cases h : n = pos
    · rw [if_pos h, if_pos (by omega)]
    · rw [if_neg h, if_neg (by omega)]
  · rw [keyBit, setBit, Function.update_of_ne hbyte, if_neg (by omega), keyBit]

/-- The window holds the register's output, and the rest of the key is as before.
SOURCE: dpdk/lib/hash/rte_thash.c:390-394 -/
theorem keyBit_writeSubkey (m : ℕ) (key : ℕ → UInt8) (l : Lfsr) (pos n : ℕ) :
    keyBit (writeSubkey m key l pos) n =
      if pos ≤ n ∧ n < pos + m then lfsrBit l (n - pos) else keyBit key n := by
  induction m generalizing key l pos with
  | zero => rw [writeSubkey, if_neg (by omega)]
  | succ m ih =>
    rw [writeSubkey, ih]
    by_cases hin : pos + 1 ≤ n ∧ n < pos + 1 + m
    · rw [if_pos hin, if_pos (by omega), show n - pos = (n - (pos + 1)) + 1 by omega, lfsrBit]
    rw [if_neg hin, keyBit_setBit]
    by_cases hpos : n = pos
    · rw [if_pos hpos, if_pos (by omega), hpos, Nat.sub_self, lfsrBit]
    · rw [if_neg hpos, if_neg (by omega)]

/-! ## The pattern of the symmetric key -/

theorem symmetricRsskey_period (n : ℕ) (hn : n < 400) :
    keyBit (keyBytes symmetricRsskey) (n + 16) = keyBit (keyBytes symmetricRsskey) n := by
  have h : ∀ n < 400,
      keyBit (keyBytes symmetricRsskey) (n + 16) = keyBit (keyBytes symmetricRsskey) n := by
    set_option maxRecDepth 2000 in
    decide
  exact h n hn

theorem symmetricRsskey_period32 (n : ℕ) (hn : n < 384) :
    keyBit (keyBytes symmetricRsskey) (n + 32) = keyBit (keyBytes symmetricRsskey) n := by
  rw [show n + 32 = n + 16 + 16 by omega, symmetricRsskey_period _ (by omega),
    symmetricRsskey_period _ (by omega)]

/-- Weights that pick one place out of the pattern: as a polynomial it is a unit modulo
`x ^ 16 + 1`, and these are the coefficients of its inverse. -/
def patternDual (i : ℕ) : Bool := (0x4d3e : ℕ).testBit i

/-- No register of at most 15 bits gives the pattern of the key.
SOURCE: lib/ff_dpdk_if.c:110-118, dpdk/lib/hash/rte_thash.c:103-119 -/
theorem lfsrBit_ne_symmetric (l : Lfsr) (hl : l.state < 2 ^ l.deg) (hd : 0 < l.deg)
    (hdeg : l.deg < 16) :
    ¬ ∀ i < 31, lfsrBit l i = keyBit (keyBytes symmetricRsskey) (80 + i) := by
  intro h
  have hdual : ∀ k < 16, xorSum (fun i => patternDual i && lfsrBit l (i + k)) 16 =
      decide (k = 16 - 1) := by
    intro k hk
    have hpattern : ∀ k < 16, xorSum (fun i => patternDual i &&
        keyBit (keyBytes symmetricRsskey) (80 + (i + k))) 16 = decide (k = 16 - 1) := by
      decide
    rw [← hpattern k hk]
    apply xorSum_congr
    intro i hi
    rw [h (i + k) (by omega)]
  apply not_recurrence hdeg hdual l.poly.testBit
  intro i hi
  exact lfsrBit_recurrence l hl hd (by omega) i

/-- A key that has the pattern below bit 80 is symmetric exactly if it has it up to bit
126.  Each bit of the window is compared with the one 16 places before. -/
theorem symmetricBits_iff_pattern (hlen : 16 ≤ len)
    (hlow : ∀ n < 80, keyBit key n = keyBit (keyBytes symmetricRsskey) n) :
    SymmetricBits (hashKeyBit len key) ↔
      ∀ i < 47, keyBit key (80 + i) = keyBit (keyBytes symmetricRsskey) (80 + i) := by
  have hbit : ∀ n < 128, hashKeyBit len key n = keyBit key n := by
    intro n hn
    rw [hashKeyBit, decide_eq_true (Or.inr (by omega)), Bool.true_and]
  constructor
  · rintro ⟨-, hport⟩ i
    induction i using Nat.strongRecOn with
    | _ i ih =>
      intro hi
      have hback := hport (64 + i) (by omega) (by omega)
      rw [hbit _ (by omega), hbit _ (by omega), show 64 + i + 16 = 80 + i by omega] at hback
      have hperiod := symmetricRsskey_period (64 + i) (by omega)
      rw [show 64 + i + 16 = 80 + i by omega] at hperiod
      rw [← hback, hperiod]
      by_cases hfirst : i < 16
      · exact hlow _ (by omega)
      · have := ih (i - 16) (by omega) (by omega)
        rwa [show 80 + (i - 16) = 64 + i by omega] at this
  · intro hwin
    have hall : ∀ n < 127, hashKeyBit len key n = keyBit (keyBytes symmetricRsskey) n := by
      intro n hn
      rw [hbit n (by omega)]
      by_cases h : n < 80
      · exact hlow n h
      · have := hwin (n - 80) (by omega)
        rwa [show 80 + (n - 80) = n by omega] at this
    refine ⟨?_, ?_⟩
    · intro j hj
      rw [hall _ (by omega), hall _ (by omega), symmetricRsskey_period32 j (by omega)]
    · intro j hj1 hj2
      rw [hall _ (by omega), hall _ (by omega), symmetricRsskey_period j (by omega)]

/-! ## The published key -/

/-- The run of `ff_rss_thash_build_key` publishes a new key: it is not switched off, no port has
published one before, the context for IPv4 is there and there is memory for the key. -/
def RewritesKey (st : KeyState) (p : PortInit) : Prop :=
  p.thash_adjust = true ∧ 2 ≤ p.reta_size.toNat ∧ st.ff_rss_key_built = false ∧ p.key_mem = true ∧
    if p.is_primary then p.v4.ctx_mem = true ∧ p.v4.helper_mem = true ∧ 64 ≤ p.reta_size.toNat
    else p.v4.existing.isSome = true

theorem ffRssRetaLog2_lt (r : UInt16) : ffRssRetaLog2 r < 16 := by
  by_cases h : r.toNat = 0
  · rw [ffRssRetaLog2, h]
    decide
  · rw [ffRssRetaLog2, Nat.log2_lt h]
    exact r.toNat_lt

/-- 47 bits fit the register's period exactly from a table of 64 entries on. -/
theorem two_pow_reta_lt_iff (r : UInt16) (h : 2 ≤ r.toNat) :
    2 ^ ffRssRetaLog2 r - 1 < 16 + TOEPLITZ_HASH_LEN - 1 ↔ r.toNat < 64 := by
  have hlog : 6 ≤ ffRssRetaLog2 r ↔ 64 ≤ r.toNat := Nat.le_log2 (by omega)
  rw [TOEPLITZ_HASH_LEN]
  constructor
  · intro hlt
    by_contra hge
    have hpow : 2 ^ 6 ≤ 2 ^ ffRssRetaLog2 r :=
      Nat.pow_le_pow_right (by omega) (hlog.mpr (by omega))
    omega
  · intro hlt
    have hpow : 2 ^ ffRssRetaLog2 r ≤ 2 ^ 5 := Nat.pow_le_pow_right (by omega) (by omega)
    omega

/-- A context of the primary process, for a window that lies in the key. -/
theorem thashContext_primary {off : ℕ} (key : ℕ → UInt8) (env : ThashEnv) (hoff : off + 47 ≤ len * 8)
    (h2 : 2 ≤ p.reta_size.toNat) :
    thashContext true len (ffRssRetaLog2 p.reta_size) key off env =
      if env.ctx_mem = true ∧ env.helper_mem = true ∧ 64 ≤ p.reta_size.toNat then
        some (writeSubkey 47 key (allocLfsr (ffRssRetaLog2 p.reta_size) env.poly env.rand) off)
      else none := by
  have hlt := ffRssRetaLog2_lt p.reta_size
  have hper := two_pow_reta_lt_iff p.reta_size h2
  have hone : 1 ≤ ffRssRetaLog2 p.reta_size := (Nat.le_log2 (by omega)).mpr (by omega)
  have hlog : 2 ≤ ffRssRetaLog2 p.reta_size ↔ 4 ≤ p.reta_size.toNat := Nat.le_log2 (by omega)
  rw [thashContext, if_pos rfl, rteThashAddHelper]
  cases hc : env.ctx_mem with
  | false => simp
  | true =>
    cases hh : env.helper_mem with
    | false => simp
    | true =>
      by_cases h64 : 64 ≤ p.reta_size.toNat
      · rw [if_neg (by simp; omega), if_neg (by rw [TOEPLITZ_HASH_LEN]; omega), if_neg (by simp)]
        dsimp only
        rw [if_neg (by omega), if_pos ⟨rfl, rfl, h64⟩]
        rfl
      · have hnot : ¬ (true = true ∧ true = true ∧ 64 ≤ p.reta_size.toNat) := fun h => h64 h.2.2
        rw [if_neg hnot]
        split
        · rfl
        · split
          · rfl
          · rw [if_neg (by simp)]
            dsimp only
            rw [if_pos (by omega)]

/-- Nothing is published. -/
theorem ffRssThashBuildKey_unchanged (hkey : st.rsskey = some key) (hlen : 40 ≤ st.rsskey_len)
    (h : ¬ RewritesKey st p) :
    ffRssThashBuildKey st p = st := by
  rw [ffRssThashBuildKey, hkey]
  dsimp only
  split
  · rfl
  split
  · rfl
  split
  · rfl
  rename_i hadj hbuilt hbig
  have hadj' : p.thash_adjust = true := by
    cases ha : p.thash_adjust with
    | false => exact absurd (Or.inl ha) hadj
    | true => rfl
  have hbuilt' : st.ff_rss_key_built = false := by
    cases hb : st.ff_rss_key_built with
    | true => exact absurd (Or.inr hb) hbuilt
    | false => rfl
  cases hctx : thashContext p.is_primary st.rsskey_len (ffRssRetaLog2 p.reta_size) key 80 p.v4 with
  | none => rfl
  | some key_v4 =>
    dsimp only
    cases hmem : p.key_mem with
    | false => rfl
    | true =>
      -- every other condition of a publication holds
      refine absurd ⟨hadj', by omega, hbuilt', hmem, ?_⟩ h
      cases hprim : p.is_primary with
      | true =>
        rw [hprim, thashContext_primary key p.v4 (by omega) (by omega)] at hctx
        rw [if_pos rfl]
        by_contra hnot
        rw [if_neg hnot] at hctx
        cases hctx
      | false =>
        rw [hprim, thashContext, if_neg (by simp)] at hctx
        rw [if_neg (by simp), hctx]
        rfl

/-- What is published.  The window of the IPv6 helper begins behind the bits that an
IPv4 flow reads. -/
theorem ffRssThashBuildKey_published (hkey : st.rsskey = some key) (hlen : 40 ≤ st.rsskey_len)
    (hmax : st.rsskey_len ≤ 64) (h : RewritesKey st p) :
    ∃ pub_key, ffRssThashBuildKey st p = ⟨some pub_key, st.rsskey_len, true⟩ ∧
      (p.is_primary = true → ∀ n < 127, keyBit pub_key n =
        keyBit (writeSubkey 47 key
          (allocLfsr (ffRssRetaLog2 p.reta_size) p.v4.poly p.v4.rand) 80) n) ∧
      (p.is_primary = false → p.v6.existing.or p.v4.existing = some pub_key) := by
  obtain ⟨hadj, h2, hbuilt, hmem, henv⟩ := h
  rw [ffRssThashBuildKey, hkey]
  dsimp only
  rw [if_neg (by simp [hadj]; omega), if_neg (by simp [hbuilt]; omega), if_neg (by omega)]
  cases hprim : p.is_primary with
  | true =>
    rw [hprim, if_pos rfl] at henv
    rw [thashContext_primary key p.v4 (by omega) h2, if_pos henv]
    dsimp only
    rw [hmem, if_pos rfl]
    generalize writeSubkey 47 key (allocLfsr (ffRssRetaLog2 p.reta_size) p.v4.poly p.v4.rand) 80 =
      key_v4
    refine ⟨_, rfl, ?_, by simp⟩
    intro _ n hn
    rw [thashContext_primary key_v4 p.v6 (by omega) h2]
    split
    · rename_i key_final hfinal
      split at hfinal
      · cases hfinal
        rw [keyBit_writeSubkey, if_neg (by omega)]
      · cases hfinal
    · rfl
  | false =>
    rw [hprim, if_neg (by simp)] at henv
    obtain ⟨key_v4, hv4⟩ := Option.isSome_iff_exists.mp henv
    simp only [thashContext, Bool.false_eq_true, if_false, hv4]
    rw [hmem, if_pos rfl]
    refine ⟨_, rfl, by simp, ?_⟩
    intro _
    cases p.v6.existing with
    | none => rfl
    | some key_final => rfl

/-- The key in `rsskey` makes both directions of every IPv4 flow hash alike. -/
def SymmetricRss (st : KeyState) : Prop :=
  ∃ key, st.rsskey = some key ∧ SymmetricKey st.rsskey_len key

/-- The condition for it, on the port and the state before: the NIC takes a key of 40 or 52 bytes
and the key is not rewritten, or it is replaced, in a secondary process, by a symmetric one.  A port
without RSS leaves the key alone. -/
def KeepsSymmetry (st : KeyState) (p : PortInit) : Prop :=
  if p.flow_type_rss_offloads then
    (p.hash_key_size = 40 ∨ p.hash_key_size = 52) ∧
      (RewritesKey st p → p.is_primary = false ∧ ∀ key, p.v6.existing.or p.v4.existing = some key →
        SymmetricBits (hashKeyBit p.hash_key_size key))
  else ∃ key, st.rsskey = some key ∧ SymmetricBits (hashKeyBit st.rsskey_len key)

/-- With a key length of zero only the first 32 bits of the key are read. -/
theorem not_symmetricBits_empty : ¬ SymmetricBits (hashKeyBit 0 (keyBytes symmetricRsskey)) := by
  rintro ⟨haddr, -⟩
  have := haddr 1 (by omega)
  revert this
  decide

/-- The key as it is chosen, before `ff_rss_thash_build_key` runs. -/
def chosenKey (st : KeyState) (len : ℕ) : KeyState :=
  { st with rsskey := some (keyBytes symmetricRsskey), rsskey_len := len }

theorem initPortRss_eq (hsym : p.symmetric_rss = true) (hq : 1 < p.nb_queues)
    (hrss : p.flow_type_rss_offloads = true) (hsize : p.hash_key_size = 40 ∨ p.hash_key_size = 52) :
    initPortRss st p =
      if p.thash_adjust then ffRssThashBuildKey (chosenKey st p.hash_key_size) p
      else chosenKey st p.hash_key_size := by
  cases hsize with
  | inl h40 => simp [initPortRss, chosenKey, hrss, hsym, hq, h40]
  | inr h52 => simp [initPortRss, chosenKey, hrss, hsym, hq, h52]

theorem ffRssThashBuildKey_empty (p : PortInit) (hlen : st.rsskey_len = 0) :
    ffRssThashBuildKey st p = st := by
  rw [ffRssThashBuildKey]
  cases hkey : st.rsskey with
  | none => rfl
  | some key =>
    dsimp only
    rw [if_pos (Or.inr hlen)]

/-- For any other key size the key is `NULL`, or the symmetric one with length zero.
SOURCE: lib/ff_dpdk_if.c:743-752 -/
theorem initPortRss_unsupported (hsym : p.symmetric_rss = true) (hrss : p.flow_type_rss_offloads = true)
    (h40 : p.hash_key_size ≠ 40) (h52 : p.hash_key_size ≠ 52) :
    initPortRss st p = { st with
      rsskey := if p.hash_key_size = 0 then none else some (keyBytes symmetricRsskey)
      rsskey_len := 0 } := by
  rw [initPortRss, if_pos hrss]
  split
  · exact absurd ‹_› h40
  · exact absurd ‹_› h52
  by_cases hzero : p.hash_key_size = 0
  · simp [hzero, ffRssThashBuildKey_empty]
  · simp [hzero, hsym, ffRssThashBuildKey_empty]

/-- The rewritten key of a primary process is not symmetric. -/
theorem published_not_symmetricBits {pub_key : ℕ → UInt8} (hlen : 16 ≤ len)
    (h64 : 64 ≤ p.reta_size.toNat)
    (hpub : ∀ n < 127, keyBit pub_key n = keyBit (writeSubkey 47 (keyBytes symmetricRsskey)
      (allocLfsr (ffRssRetaLog2 p.reta_size) p.v4.poly p.v4.rand) 80) n) :
    ¬ SymmetricBits (hashKeyBit len pub_key) := by
  have hlow : ∀ n < 80, keyBit pub_key n = keyBit (keyBytes symmetricRsskey) n := by
    intro n hn
    rw [hpub n (by omega), keyBit_writeSubkey, if_neg (by omega)]
  rw [symmetricBits_iff_pattern hlen hlow]
  intro hwin
  have hdeg : 6 ≤ ffRssRetaLog2 p.reta_size := (Nat.le_log2 (by omega)).mpr (by omega)
  apply lfsrBit_ne_symmetric _ (allocLfsr_lt (ffRssRetaLog2 p.reta_size) p.v4.poly p.v4.rand)
    (Nat.lt_of_lt_of_le (by omega) hdeg) (ffRssRetaLog2_lt p.reta_size)
  intro i hi
  rw [← hwin i (by omega), hpub _ (by omega), keyBit_writeSubkey, if_pos (by omega),
    Nat.add_sub_cancel_left]

theorem symmetricRss_some (hkey : st.rsskey = some key) :
    SymmetricRss st ↔ SymmetricBits (hashKeyBit st.rsskey_len key) := by
  rw [← symmetricKey_iff]
  constructor
  · rintro ⟨key', hkey', h⟩
    rw [hkey] at hkey'
    cases hkey'
    exact h
  · intro h
    exact ⟨key, hkey, h⟩

/-- A key that is rewritten is symmetric exactly if it is replaced, in a secondary process, by
a symmetric one. -/
theorem rewritten_symmetric_iff (hkey : st.rsskey = some (keyBytes symmetricRsskey))
    (hlen : st.rsskey_len = p.hash_key_size) (hsize : p.hash_key_size = 40 ∨ p.hash_key_size = 52)
    (hnew : RewritesKey st p) :
    SymmetricRss (ffRssThashBuildKey st p) ↔
      p.is_primary = false ∧ ∀ key, p.v6.existing.or p.v4.existing = some key →
        SymmetricBits (hashKeyBit p.hash_key_size key) := by
  obtain ⟨pub_key, heq, hprim, hsec⟩ :=
    ffRssThashBuildKey_published hkey (by omega) (by omega) hnew
  rw [heq, symmetricRss_some rfl, hlen]
  cases hp : p.is_primary with
  | true =>
    obtain ⟨-, -, -, -, henv⟩ := hnew
    rw [hp, if_pos rfl] at henv
    have hnot : ¬ SymmetricBits (hashKeyBit p.hash_key_size pub_key) :=
      published_not_symmetricBits (by omega) henv.2.2 (hprim hp)
    refine iff_of_false hnot ?_
    rintro ⟨hfalse, -⟩
    cases hfalse
  | false => simp [hsec hp]

/-- A key that is not rewritten stays the symmetric one. -/
theorem kept_symmetric (hkey : st.rsskey = some (keyBytes symmetricRsskey))
    (hlen : st.rsskey_len = p.hash_key_size) (hsize : p.hash_key_size = 40 ∨ p.hash_key_size = 52)
    (hnew : ¬ RewritesKey st p) :
    SymmetricRss (if p.thash_adjust then ffRssThashBuildKey st p else st) := by
  have hsame : (if p.thash_adjust then ffRssThashBuildKey st p else st) = st := by
    split
    · exact ffRssThashBuildKey_unchanged hkey (by omega) hnew
    · rfl
  rw [hsame, symmetricRss_some hkey, symmetricBits_iff_pattern (by omega) (fun n _ => rfl)]
  intro i hi
  rfl

/-- For a key size that is not supported the key is not symmetric. -/
theorem not_symmetricRss_unsupported (hsym : p.symmetric_rss = true)
    (hrss : p.flow_type_rss_offloads = true) (hsize : ¬ (p.hash_key_size = 40 ∨ p.hash_key_size = 52)) :
    ¬ SymmetricRss (initPortRss st p) := by
  rw [initPortRss_unsupported hsym hrss (by omega) (by omega)]
  by_cases hzero : p.hash_key_size = 0
  · rintro ⟨key, hsome, -⟩
    rw [if_pos hzero] at hsome
    cases hsome
  · rw [symmetricRss_some (if_neg hzero)]
    exact not_symmetricBits_empty

/-- The key left in `rsskey` after the start of a port with several queues and symmetric RSS is
symmetric exactly if `KeepsSymmetry` holds: in a primary process, whatever the random polynomial and
state of the register are, a rewritten key is not.
SOURCE: lib/ff_dpdk_if.c:730-771, lib/ff_dpdk_if.c:3025-3180 -/
theorem initPortRss_symmetric_iff (st : KeyState) (p : PortInit) (hsym : p.symmetric_rss = true)
    (hq : 1 < p.nb_queues) : SymmetricRss (initPortRss st p) ↔ KeepsSymmetry st p := by
  cases hrss : p.flow_type_rss_offloads with
  | false =>
    rw [KeepsSymmetry, hrss, if_neg (by simp), initPortRss, hrss, if_neg (by simp)]
    cases hkey : st.rsskey with
    | none =>
      constructor
      · rintro ⟨key, hsome, -⟩
        rw [hkey] at hsome
        cases hsome
      · rintro ⟨key, hsome, -⟩
        cases hsome
    | some key =>
      rw [symmetricRss_some hkey]
      simp
  | true =>
    rw [KeepsSymmetry, hrss, if_pos rfl]
    by_cases hsize : p.hash_key_size = 40 ∨ p.hash_key_size = 52
    · rw [initPortRss_eq hsym hq hrss hsize]
      -- whether the key is rewritten does not depend on the key that was chosen
      have hrw : RewritesKey (chosenKey st p.hash_key_size) p ↔ RewritesKey st p := Iff.rfl
      simp only [hsize, true_and, ← hrw]
      by_cases hnew : RewritesKey (chosenKey st p.hash_key_size) p
      · rw [if_pos hnew.1, rewritten_symmetric_iff rfl rfl hsize hnew]
        simp only [hnew, true_imp_iff]
      · exact iff_of_true (kept_symmetric rfl rfl hsize hnew) fun h => absurd h hnew
    · exact iff_of_false (not_symmetricRss_unsupported hsym hrss hsize) fun h => hsize h.1

/-- A port of a primary process with two queues, a 40-byte key and a table of 128 entries; the
adjustment of the key is on, as it is by default, or off. -/
def twoQueuePort (thash_adjust : Bool) : PortInit :=
  { flow_type_rss_offloads := true
    hash_key_size := 40
    reta_size := 128
    nb_queues := 2
    symmetric_rss := true
    thash_adjust := thash_adjust
    is_primary := true
    v4 := ⟨true, true, 3, 1, none⟩
    v6 := ⟨true, true, 3, 1, none⟩
    key_mem := true }

/-- The globals before the first port is started. -/
def initialKey : KeyState := ⟨some (keyBytes defaultRsskey40bytes), 40, false⟩

theorem initPortRss_symmetric_iff_unadjusted :
    SymmetricRss (initPortRss initialKey (twoQueuePort false)) ↔
      KeepsSymmetry initialKey (twoQueuePort false) :=
  initPortRss_symmetric_iff initialKey (twoQueuePort false) rfl (by decide)

/-- With the adjustment on, the two directions of a flow are hashed differently.
SOURCE: lib/ff_dpdk_if.c:749-762 -/
theorem twoQueuePort_not_symmetric :
    ¬ SymmetricRss (initPortRss initialKey (twoQueuePort true)) := by
  have hnew : RewritesKey initialKey (twoQueuePort true) := by
    refine ⟨rfl, by decide, rfl, rfl, ?_⟩
    rw [if_pos (show (twoQueuePort true).is_primary = true from rfl)]
    exact ⟨rfl, rfl, by decide⟩
  have hkey : (chosenKey initialKey 40).rsskey = some (keyBytes symmetricRsskey) := rfl
  obtain ⟨pub_key, heq, hprim, -⟩ :=
    ffRssThashBuildKey_published hkey (by decide) (by decide) hnew
  rw [initPortRss_eq rfl (by decide) rfl (Or.inl rfl),
    if_pos (show (twoQueuePort true).thash_adjust = true from rfl),
    show (twoQueuePort true).hash_key_size = 40 from rfl, heq, symmetricRss_some rfl]
  have hlen : 16 ≤ (chosenKey initialKey 40).rsskey_len := by decide
  exact published_not_symmetricBits hlen (by decide) (hprim rfl)

end FStack.Analysis
