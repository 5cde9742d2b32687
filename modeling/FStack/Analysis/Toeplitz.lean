import FStack.Model.RssHash
import FStack.Prelude.XorSum

/-!
# The bits of the hash

`toeplitz_hash` keeps a window of 32 key bits that moves by one with every data bit.
`toeplitzHash_getMsbD` gives each bit of the result as a sum over the data bits, and
`symmetricKey_iff` says which keys hash the two directions of an IPv4 flow alike.
-/

set_option autoImplicit false

namespace FStack.Analysis

open FStack.Model FStack.Prelude

variable {n keylen : ℕ} {a b data : List UInt8} {key : ℕ → UInt8}

/-- Bit `n` of the key, counted from the first byte's most significant bit. -/
def keyBit (key : ℕ → UInt8) (n : ℕ) : Bool := byteBit (key (n / 8)) (n % 8)

/-- Bit `n` of the key as the hash sees it: zero behind the key's end, except that the first four
bytes are always read. -/
def hashKeyBit (keylen : ℕ) (key : ℕ → UInt8) (n : ℕ) : Bool :=
  decide (n < 32 ∨ n / 8 < keylen) && keyBit key n

/-- Bit `n` of the key as the hash reads it: the byte index `i + 4` is a 32-bit one. -/
def readKeyBit (keylen : ℕ) (key : ℕ → UInt8) (n : ℕ) : Bool :=
  decide (n < 32 ∨ n / 8 % 2 ^ 32 < keylen) && keyBit key (n % 2 ^ 35)

theorem readKeyBit_of_lt (hn : n < 2 ^ 35) (keylen : ℕ) (key : ℕ → UInt8) :
    readKeyBit keylen key n = hashKeyBit keylen key n := by
  rw [readKeyBit, hashKeyBit, Nat.mod_eq_of_lt hn, Nat.mod_eq_of_lt (show n / 8 < 2 ^ 32 by omega)]

/-- Bit `n` of the data. -/
def dataBit (data : List UInt8) (n : ℕ) : Bool := byteBit (data.getD (n / 8) 0) (n % 8)

theorem dataBit_append_left (hn : n < 8 * a.length) :
    dataBit (a ++ b) n = dataBit a n := by
  have hlt : n / 8 < a.length := by omega
  rw [dataBit, dataBit, List.getD_eq_getElem?_getD, List.getD_eq_getElem?_getD,
    List.getElem?_append_left hlt]

theorem dataBit_append_right (a b : List UInt8) (n : ℕ) :
    dataBit (a ++ b) (8 * a.length + n) = dataBit b n := by
  have hdiv : (8 * a.length + n) / 8 = a.length + n / 8 := by omega
  have hmod : (8 * a.length + n) % 8 = n % 8 := by omega
  rw [dataBit, dataBit, hdiv, hmod, List.getD_eq_getElem?_getD, List.getD_eq_getElem?_getD,
    List.getElem?_append_right (by omega), Nat.add_sub_cancel_left]

/-- INTERNAL: the inner loop, up to bit `b`: the window has moved by `b`, and the hash has the
share of the bits seen.
SOURCE: lib/ff_dpdk_if.c:2620-2628 -/
theorem toeplitzBit_foldl (keylen : ℕ) (key : ℕ → UInt8) (i : ℕ) (x : UInt8) (st : ToeplitzState)
    (hv : ∀ t < 32, st.v.getMsbD t = readKeyBit keylen key (8 * i + t)) (b : ℕ) (hb : b ≤ 8) :
    (∀ t < 32, ((List.range b).foldl (toeplitzBit keylen key i x) st).v.getMsbD t =
      readKeyBit keylen key (8 * i + b + t)) ∧
    ∀ t < 32, ((List.range b).foldl (toeplitzBit keylen key i x) st).hash.getMsbD t =
      (st.hash.getMsbD t ^^ share (readKeyBit keylen key) (byteBit x) (8 * i) b t) := by
  induction b with
  | zero =>
    refine ⟨?_, ?_⟩
    · intro t ht
      simpa using hv t ht
    · intro t ht
      simp [share, xorSum]
  | succ b ih =>
    obtain ⟨ihv, ihh⟩ := ih (by omega)
    rw [List.range_succ, List.foldl_append]
    generalize (List.range b).foldl (toeplitzBit keylen key i x) st = st' at ihv ihh
    refine ⟨?_, ?_⟩
    · intro t ht
      -- the key bit that enters the window at its low end
      have hnew : (decide ((i + 4) % 2 ^ 32 < keylen) && byteBit (key ((i + 4) % 2 ^ 32)) b) =
          readKeyBit keylen key (8 * i + b + 32) := by
        have hdiv : (8 * i + b + 32) / 8 = i + 4 := by omega
        have hbyte : (8 * i + b + 32) % 2 ^ 35 / 8 = (i + 4) % 2 ^ 32 := by omega
        have hmod : (8 * i + b + 32) % 2 ^ 35 % 8 = b := by omega
        have hge : ¬ 8 * i + b + 32 < 32 := by omega
        rw [readKeyBit, keyBit, hdiv, hbyte, hmod]
        simp [hge]
      have hshift : (st'.v <<< 1).getMsbD t =
          (decide (t < 31) && readKeyBit keylen key (8 * i + (b + 1) + t)) := by
        rw [BitVec.getMsbD_shiftLeft]
        by_cases hlt : t < 31
        · rw [ihv (t + 1) (by omega), show 8 * i + b + (t + 1) = 8 * i + (b + 1) + t by omega]
          simp [hlt]
        · rw [BitVec.getMsbD_of_ge _ _ (by omega)]
          simp [hlt]
      simp only [List.foldl_cons, List.foldl_nil, toeplitzBit]
      rw [hnew]
      by_cases hlast : t = 31
      · subst hlast
        have hidx : 8 * i + b + 32 = 8 * i + (b + 1) + 31 := by omega
        cases hk : readKeyBit keylen key (8 * i + b + 32) with
        | true =>
          rw [if_pos rfl, BitVec.getMsbD_or, hshift, ← hidx, hk]
          decide
        | false =>
          rw [if_neg (by simp), hshift, ← hidx, hk]
          decide
      · have hone : (1 : BitVec 32).getMsbD t = false := by
          simp [hlast]
        split
        · rw [BitVec.getMsbD_or, hshift, hone, Bool.or_false]
          simp only [show t < 31 by omega, decide_true, Bool.true_and]
        · rw [hshift]
          simp only [show t < 31 by omega, decide_true, Bool.true_and]
    · intro t ht
      simp only [List.foldl_cons, List.foldl_nil, toeplitzBit]
      rw [share, xorSum, ← share]
      cases hx : byteBit x b with
      | true =>
        rw [if_pos rfl, BitVec.getMsbD_xor, ihh t ht, ihv t ht, Bool.true_and, Bool.xor_assoc]
      | false =>
        rw [if_neg (by simp), ihh t ht, Bool.false_and, Bool.xor_false]

/-- INTERNAL: the outer loop from byte `i` on adds the share of the data. -/
theorem toeplitzLoop_getMsbD (keylen : ℕ) (key : ℕ → UInt8) (data : List UInt8) (i : ℕ)
    (st : ToeplitzState)
    (hv : ∀ t < 32, st.v.getMsbD t = readKeyBit keylen key (8 * i + t)) (t : ℕ) (ht : t < 32) :
    (toeplitzLoop keylen key i data st).hash.getMsbD t =
      (st.hash.getMsbD t ^^
        share (readKeyBit keylen key) (dataBit data) (8 * i) (8 * data.length) t) := by
  induction data generalizing i st with
  | nil => simp [toeplitzLoop, share, xorSum]
  | cons x data ih =>
    obtain ⟨hv', hh'⟩ := toeplitzBit_foldl keylen key i x st hv 8 (by omega)
    rw [toeplitzLoop, ih (i + 1) _ hv', hh' t ht, Bool.xor_assoc]
    have hfirst : share (readKeyBit keylen key) (byteBit x) (8 * i) 8 t =
        xorSum (fun n => dataBit (x :: data) n && readKeyBit keylen key (8 * i + n + t)) 8 := by
      apply xorSum_congr
      intro n hn
      have hdiv : n / 8 = 0 := by omega
      have hmod : n % 8 = n := by omega
      have hbit : dataBit (x :: data) n = byteBit x n := by
        rw [dataBit, hdiv, hmod]
        rfl
      rw [hbit]
    have hrest : share (readKeyBit keylen key) (dataBit data) (8 * (i + 1)) (8 * data.length) t =
        xorSum (fun n => dataBit (x :: data) (8 + n) &&
          readKeyBit keylen key (8 * i + (8 + n) + t)) (8 * data.length) := by
      apply xorSum_congr
      intro n hn
      have hbit := dataBit_append_right [x] data n
      simp only [List.singleton_append, List.length_singleton, Nat.mul_one] at hbit
      rw [hbit, show 8 * (i + 1) + n + t = 8 * i + (8 + n) + t by omega]
    rw [hfirst, hrest, ← xorSum_add, List.length_cons,
      show 8 + 8 * data.length = 8 * (data.length + 1) by omega]
    rfl

theorem getMsbD_shifted_byte (x : BitVec 8) (s t : ℕ) :
    (x.setWidth 32 <<< s).getMsbD t =
      (decide (24 ≤ t + s ∧ t + s < 32) && x.getMsbD (t + s - 24)) := by
  rw [BitVec.getMsbD_shiftLeft, BitVec.getMsbD_setWidth]
  by_cases h1 : 24 ≤ t + s
  · rw [show t + s + 8 - 32 = t + s - 24 by omega]
    by_cases h2 : t + s < 32
    · simp [h1, h2]
    · simp [h1, h2, BitVec.getMsbD_of_ge x (t + s - 24) (by omega)]
  · simp [h1]

/-- INTERNAL: the window before the first data bit is the first four key bytes. -/
theorem firstWindow_getMsbD (a b c d : BitVec 8) (t : ℕ) (ht : t < 32) :
    ((a.setWidth 32 <<< 24) + (b.setWidth 32 <<< 16) + (c.setWidth 32 <<< 8) +
        d.setWidth 32 : BitVec 32).getMsbD t =
      if t < 8 then a.getMsbD t else if t < 16 then b.getMsbD (t - 8)
      else if t < 24 then c.getMsbD (t - 16) else d.getMsbD (t - 24) := by
  have hd : d.setWidth 32 = d.setWidth 32 <<< 0 := by rw [BitVec.shiftLeft_zero]
  -- the four bytes do not overlap, so their sum is their union
  have h1 : (a.setWidth 32 <<< 24) &&& (b.setWidth 32 <<< 16) = 0#32 := by
    apply BitVec.eq_of_getMsbD_eq
    intro i hi
    rw [BitVec.getMsbD_and, getMsbD_shifted_byte, getMsbD_shifted_byte, BitVec.getMsbD_zero]
    by_cases h : i < 8
    · simp [show ¬ 24 ≤ i + 16 by omega]
    · simp [show ¬ i + 24 < 32 by omega]
  have h2 : ((a.setWidth 32 <<< 24) ||| (b.setWidth 32 <<< 16)) &&& (c.setWidth 32 <<< 8) = 0#32 := by
    apply BitVec.eq_of_getMsbD_eq
    intro i hi
    rw [BitVec.getMsbD_and, BitVec.getMsbD_or, getMsbD_shifted_byte, getMsbD_shifted_byte,
      getMsbD_shifted_byte, BitVec.getMsbD_zero]
    by_cases h : i < 16
    · simp [show ¬ 24 ≤ i + 8 by omega]
    · simp [show ¬ i + 24 < 32 by omega, show ¬ i + 16 < 32 by omega]
  have h3 : ((a.setWidth 32 <<< 24) ||| (b.setWidth 32 <<< 16) ||| (c.setWidth 32 <<< 8)) &&&
      (d.setWidth 32 <<< 0) = 0#32 := by
    apply BitVec.eq_of_getMsbD_eq
    intro i hi
    rw [BitVec.getMsbD_and, BitVec.getMsbD_or, BitVec.getMsbD_or, getMsbD_shifted_byte,
      getMsbD_shifted_byte, getMsbD_shifted_byte, getMsbD_shifted_byte, BitVec.getMsbD_zero]
    by_cases h : i < 24
    · simp [show ¬ 24 ≤ i by omega]
    · simp [show ¬ i + 24 < 32 by omega, show ¬ i + 16 < 32 by omega, show ¬ i + 8 < 32 by omega]
  rw [hd, BitVec.add_eq_or_of_and_eq_zero _ _ h1, BitVec.add_eq_or_of_and_eq_zero _ _ h2,
    BitVec.add_eq_or_of_and_eq_zero _ _ h3, BitVec.getMsbD_or, BitVec.getMsbD_or, BitVec.getMsbD_or,
    getMsbD_shifted_byte, getMsbD_shifted_byte, getMsbD_shifted_byte, getMsbD_shifted_byte]
  by_cases ha : t < 8
  · simp [ha, show t + 24 < 32 by omega, show ¬ 24 ≤ t + 16 by omega, show ¬ 24 ≤ t + 8 by omega,
      show ¬ 24 ≤ t by omega]
  by_cases hb : t < 16
  · simp [ha, hb, show ¬ t + 24 < 32 by omega, show 24 ≤ t + 16 by omega, show t + 16 < 32 by omega,
      show ¬ 24 ≤ t + 8 by omega, show ¬ 24 ≤ t by omega, show t + 16 - 24 = t - 8 by omega]
  by_cases hc : t < 24
  · simp [ha, hb, hc, show ¬ t + 24 < 32 by omega, show ¬ t + 16 < 32 by omega,
      show 24 ≤ t + 8 by omega, show t + 8 < 32 by omega, show ¬ 24 ≤ t by omega,
      show t + 8 - 24 = t - 16 by omega]
  · simp [ha, hb, hc, show ¬ t + 24 < 32 by omega, show ¬ t + 16 < 32 by omega,
      show ¬ t + 8 < 32 by omega, show 24 ≤ t by omega, ht]

/-- Bit `t` of the hash is the share of the whole data.
SOURCE: lib/ff_dpdk_if.c:2610-2631 -/
theorem toeplitzHash_read (keylen : ℕ) (key : ℕ → UInt8) (data : List UInt8) (t : ℕ)
    (ht : t < 32) :
    (toeplitzHash keylen key data).getMsbD t =
      share (readKeyBit keylen key) (dataBit data) 0 (8 * data.length) t := by
  have hwindow : ∀ t < 32, (((key 0).toBitVec.setWidth 32 <<< 24) +
      ((key 1).toBitVec.setWidth 32 <<< 16) + ((key 2).toBitVec.setWidth 32 <<< 8) +
      (key 3).toBitVec.setWidth 32 : BitVec 32).getMsbD t = readKeyBit keylen key (8 * 0 + t) := by
    intro t ht
    rw [readKeyBit_of_lt (by omega), firstWindow_getMsbD _ _ _ _ t ht, hashKeyBit, keyBit, Nat.mul_zero, Nat.zero_add]
    simp only [ht, true_or, decide_true, Bool.true_and, byteBit]
    by_cases ha : t < 8
    · rw [if_pos ha, show t / 8 = 0 by omega, show t % 8 = t by omega]
    rw [if_neg ha]
    by_cases hb : t < 16
    · rw [if_pos hb, show t / 8 = 1 by omega, show t % 8 = t - 8 by omega]
    rw [if_neg hb]
    by_cases hc : t < 24
    · rw [if_pos hc, show t / 8 = 2 by omega, show t % 8 = t - 16 by omega]
    · rw [if_neg hc, show t / 8 = 3 by omega, show t % 8 = t - 24 by omega]
  rw [toeplitzHash]
  dsimp only
  generalize ((key 0).toBitVec.setWidth 32 <<< 24) + ((key 1).toBitVec.setWidth 32 <<< 16) +
    ((key 2).toBitVec.setWidth 32 <<< 8) + (key 3).toBitVec.setWidth 32 = v at hwindow ⊢
  rw [toeplitzLoop_getMsbD keylen key data 0 ⟨0, v⟩ hwindow t ht]
  simp

/-- INTERNAL: below 2^32 - 4 bytes, the index of the key byte does not wrap around. -/
theorem toeplitzHash_getMsbD (keylen : ℕ) (key : ℕ → UInt8) (hdata : data.length + 4 ≤ 2 ^ 32) (t : ℕ) (ht : t < 32) :
    (toeplitzHash keylen key data).getMsbD t =
      share (hashKeyBit keylen key) (dataBit data) 0 (8 * data.length) t := by
  rw [toeplitzHash_read _ _ _ t ht]
  apply xorSum_congr
  intro n hn
  rw [readKeyBit_of_lt (by omega)]

/-- INTERNAL: the share of a concatenation. -/
theorem share_append (K : ℕ → Bool) (a b : List UInt8) (off t : ℕ) :
    share K (dataBit (a ++ b)) off (8 * (a ++ b).length) t =
      (share K (dataBit a) off (8 * a.length) t ^^
        share K (dataBit b) (off + 8 * a.length) (8 * b.length) t) := by
  rw [List.length_append, Nat.mul_add, share, xorSum_add]
  congr 1
  · apply xorSum_congr
    intro n hn
    rw [dataBit_append_left hn]
  · apply xorSum_congr
    intro n hn
    rw [dataBit_append_right, ← Nat.add_assoc off]

/-- INTERNAL: the hash reads the key bits that its window passes over, and no others. -/
theorem toeplitzHash_congr {keylen' : ℕ} {key' : ℕ → UInt8} (hdata : data.length + 4 ≤ 2 ^ 32)
    (hkey : ∀ n < 8 * data.length + 32, hashKeyBit keylen key n = hashKeyBit keylen' key' n) :
    toeplitzHash keylen key data = toeplitzHash keylen' key' data := by
  apply BitVec.eq_of_getMsbD_eq
  intro t ht
  rw [toeplitzHash_getMsbD _ _ hdata t ht, toeplitzHash_getMsbD _ _ hdata t ht]
  apply xorSum_congr
  intro n hn
  rw [hkey _ (by omega)]

/-- INTERNAL: data that comes after the end of the key does not change the hash.
SOURCE: lib/ff_dpdk_if.c:2619-2630 -/
theorem toeplitzHash_of_exhausted (hkey : ∀ n, 8 * a.length ≤ n → hashKeyBit keylen key n = false)
    (hlength : (a ++ b).length + 4 ≤ 2 ^ 32) :
    toeplitzHash keylen key (a ++ b) = toeplitzHash keylen key a := by
  apply BitVec.eq_of_getMsbD_eq
  intro t ht
  have hb : share (hashKeyBit keylen key) (dataBit b) (0 + 8 * a.length) (8 * b.length) t = false := by
    apply xorSum_eq_false
    intro n hn
    rw [hkey _ (by omega), Bool.and_false]
  have ha : a.length + 4 ≤ 2 ^ 32 := by
    rw [List.length_append] at hlength
    omega
  rw [toeplitzHash_getMsbD _ _ hlength t ht, toeplitzHash_getMsbD _ _ ha t ht, share_append, hb,
    Bool.xor_false]

/-- INTERNAL: the hash of a flow as the shares of its four fields. -/
theorem flowHash_getMsbD (keylen : ℕ) (key : ℕ → UInt8) (a b : UInt32) (p q : UInt16) (t : ℕ)
    (ht : t < 32) :
    (toeplitzHash keylen key (bytes32 a ++ bytes32 b ++ bytes16 p ++ bytes16 q)).getMsbD t =
      (share (hashKeyBit keylen key) (dataBit (bytes32 a)) 0 32 t ^^
        share (hashKeyBit keylen key) (dataBit (bytes32 b)) 32 32 t ^^
        share (hashKeyBit keylen key) (dataBit (bytes16 p)) 64 16 t ^^
        share (hashKeyBit keylen key) (dataBit (bytes16 q)) 80 16 t) := by
  have hlength : (bytes32 a ++ bytes32 b ++ bytes16 p ++ bytes16 q).length = 12 := rfl
  rw [toeplitzHash_getMsbD _ _ (by omega) t ht, share_append, share_append, share_append]
  rfl

/-- The key hashes the two directions of every IPv4 flow alike. -/
def SymmetricKey (keylen : ℕ) (key : ℕ → UInt8) : Prop :=
  ∀ (a b : UInt32) (p q : UInt16),
    toeplitzHash keylen key (bytes32 a ++ bytes32 b ++ bytes16 p ++ bytes16 q) =
      toeplitzHash keylen key (bytes32 b ++ bytes32 a ++ bytes16 q ++ bytes16 p)

/-- The key bits look the same from the two addresses, and from the two ports. -/
def SymmetricBits (K : ℕ → Bool) : Prop :=
  (∀ j < 63, K j = K (j + 32)) ∧ ∀ j, 64 ≤ j → j < 111 → K j = K (j + 16)

theorem exists_address_bit (i : ℕ) (hi : i < 32) :
    ∃ a : UInt32, ∀ n < 32, dataBit (bytes32 a) n = decide (n = i) := by
  have h : ∀ i < 32, ∀ n < 32, dataBit (bytes32 (UInt32.ofNat (2 ^ (8 * (i / 8) + 7 - i % 8)))) n =
      decide (n = i) := by decide
  exact ⟨_, h i hi⟩

theorem exists_port_bit (i : ℕ) (hi : i < 16) :
    ∃ p : UInt16, ∀ n < 16, dataBit (bytes16 p) n = decide (n = i) := by
  have h : ∀ i < 16, ∀ n < 16, dataBit (bytes16 (UInt16.ofNat (2 ^ (8 * (i / 8) + 7 - i % 8)))) n =
      decide (n = i) := by decide
  exact ⟨_, h i hi⟩

theorem address_zero_bit (n : ℕ) (hn : n < 32) : dataBit (bytes32 0) n = false := by
  have h : ∀ n < 32, dataBit (bytes32 0) n = false := by decide
  exact h n hn

theorem port_zero_bit (n : ℕ) (hn : n < 16) : dataBit (bytes16 0) n = false := by
  have h : ∀ n < 16, dataBit (bytes16 0) n = false := by decide
  exact h n hn

/-- A key is symmetric exactly if its bits are the same 32 apart below bit 63 and 16 apart from
bit 64 to bit 110.
SOURCE: lib/ff_dpdk_if.c:2610-2631 -/
theorem symmetricKey_iff (keylen : ℕ) (key : ℕ → UInt8) :
    SymmetricKey keylen key ↔ SymmetricBits (hashKeyBit keylen key) := by
  constructor
  · intro h
    refine ⟨?_, ?_⟩
    · -- a flow whose only bit is bit `i` of one address shows key bit `i + t`
      intro j hj
      obtain ⟨i, t, hi, ht, rfl⟩ : ∃ i t, i < 32 ∧ t < 32 ∧ j = i + t :=
        ⟨min j 31, j - min j 31, by omega, by omega, by omega⟩
      obtain ⟨a, ha⟩ := exists_address_bit i hi
      have hbits := congrArg (fun x => x.getMsbD t) (h a 0 0 0)
      simp only [flowHash_getMsbD _ _ _ _ _ _ t ht, share_single hi ha, share_zero address_zero_bit,
        share_zero port_zero_bit, Bool.xor_false, Bool.false_xor, Nat.zero_add] at hbits
      rw [hbits]
      congr 1
      omega
    · intro j hj1 hj2
      obtain ⟨i, t, hi, ht, rfl⟩ : ∃ i t, i < 16 ∧ t < 32 ∧ j = 64 + i + t :=
        ⟨min (j - 64) 15, j - 64 - min (j - 64) 15, by omega, by omega, by omega⟩
      obtain ⟨p, hp⟩ := exists_port_bit i hi
      have hbits := congrArg (fun x => x.getMsbD t) (h 0 0 p 0)
      simp only [flowHash_getMsbD _ _ _ _ _ _ t ht, share_single hi hp, share_zero address_zero_bit,
        share_zero port_zero_bit, Bool.xor_false, Bool.false_xor] at hbits
      rw [hbits]
      congr 1
      omega
  · rintro ⟨haddr, hport⟩ a b p q
    apply BitVec.eq_of_getMsbD_eq
    intro t ht
    have hA : ∀ x : UInt32, share (hashKeyBit keylen key) (dataBit (bytes32 x)) 0 32 t =
        share (hashKeyBit keylen key) (dataBit (bytes32 x)) 32 32 t := by
      intro x
      apply share_congr_off
      intro n hn
      rw [haddr (0 + n + t) (by omega)]
      congr 1
      omega
    have hP : ∀ x : UInt16, share (hashKeyBit keylen key) (dataBit (bytes16 x)) 64 16 t =
        share (hashKeyBit keylen key) (dataBit (bytes16 x)) 80 16 t := by
      intro x
      apply share_congr_off
      intro n hn
      rw [hport (64 + n + t) (by omega) (by omega)]
      congr 1
      omega
    rw [flowHash_getMsbD _ _ _ _ _ _ t ht, flowHash_getMsbD _ _ _ _ _ _ t ht, hA a, hA b, hP p, hP q]
    rw [Bool.xor_comm (share _ (dataBit (bytes32 a)) 32 32 t), Bool.xor_assoc, Bool.xor_assoc,
      Bool.xor_comm (share _ (dataBit (bytes16 p)) 80 16 t), ← Bool.xor_assoc, ← Bool.xor_assoc]

end FStack.Analysis
