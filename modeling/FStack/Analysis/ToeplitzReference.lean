import FStack.Analysis.Toeplitz

/-!
# The hash and its definition

The Toeplitz hash is defined as a sum of windows of the key, one for every data bit that is set; behind its end the
key is zero.  `toeplitz_hash` moves one window along the key, and counts the bytes that enter it in an `u_int`.  For
the last three lengths that `datalen` can have, the count starts over and the key's first bytes enter once more.
`toeplitzRight_iff` says exactly when the hash is the defined one, so it is for all shorter data (`toeplitz_right`).  It
is linear in any case.
-/

set_option autoImplicit false

namespace FStack.Analysis

open FStack.Model FStack.Prelude

variable {t keylen : ℕ} {data other : List UInt8}

/-! ## The definition -/

/-- Bit `n` of a key that is zero behind its end. -/
def definedKeyBit (keylen : ℕ) (key : ℕ → UInt8) (n : ℕ) : Bool :=
  decide (n / 8 < keylen) && keyBit key n

/-- The 32 key bits from bit `i` on. -/
def keyWindow (keylen : ℕ) (key : ℕ → UInt8) (i : ℕ) : BitVec 32 :=
  (BitVec.ofBoolListBE ((List.range 32).map fun t => definedKeyBit keylen key (i + t))).cast (by simp)

/-- The exclusive or of the windows at the data bits that are set. -/
def toeplitzDefined (keylen : ℕ) (key : ℕ → UInt8) (data : List UInt8) : BitVec 32 :=
  ((List.range (8 * data.length)).filter (dataBit data)).foldl (fun hash i => hash ^^^ keyWindow keylen key i) 0

/-- The hash of some data is the defined one, and linear with all data of the same length. -/
def ToeplitzRight (keylen : ℕ) (key : ℕ → UInt8) (data : List UInt8) : Prop :=
  toeplitzHash keylen key data = toeplitzDefined keylen key data ∧
    ∀ other : List UInt8, other.length = data.length →
      toeplitzHash keylen key (List.zipWith (· ^^^ ·) data other) =
        toeplitzHash keylen key data ^^^ toeplitzHash keylen key other

/-- Bit `n` of what the count that has started over lets in, from the data's byte 2^32 - 4 on. -/
def secondKeyBit (key : ℕ → UInt8) (n : ℕ) : Bool := decide (32 ≤ n) && keyBit key (n - 32)

/-- Behind byte 2^32 - 4, the key bits that are let in once more add up to nothing; data that ends before has none. -/
def ToeplitzSafe (key : ℕ → UInt8) (data : List UInt8) : Prop :=
  ∀ t < 32, xorSum (fun n => dataBit data (2 ^ 35 - 32 + n) && secondKeyBit key (n + t))
    (8 * (data.length - (2 ^ 32 - 4))) = false

/-! ## The bits of the definition -/

theorem keyWindow_getMsbD (keylen : ℕ) (key : ℕ → UInt8) (i : ℕ) (ht : t < 32) :
    (keyWindow keylen key i).getMsbD t = definedKeyBit keylen key (i + t) := by
  rw [keyWindow, BitVec.getMsbD_cast, BitVec.getMsbD_ofBoolListBE, List.getD_eq_getElem?_getD, List.getElem?_map,
    List.getElem?_range ht]
  rfl

/-- INTERNAL: the windows seen so far have added the share of their bits. -/
theorem windows_getMsbD (keylen : ℕ) (key : ℕ → UInt8) (data : List UInt8) (ht : t < 32) (n : ℕ) :
    (((List.range n).filter (dataBit data)).foldl (fun hash i => hash ^^^ keyWindow keylen key i) 0).getMsbD t =
      share (definedKeyBit keylen key) (dataBit data) 0 n t := by
  induction n with
  | zero => exact BitVec.getMsbD_zero
  | succ n ih =>
    rw [List.range_succ, List.filter_append, List.foldl_append, share, xorSum, ← share, ← ih]
    cases hbit : dataBit data n with
    | true =>
      rw [List.filter_cons_of_pos hbit, List.filter_nil, List.foldl_cons, List.foldl_nil, BitVec.getMsbD_xor,
        keyWindow_getMsbD keylen key n ht, Nat.zero_add, Bool.true_and]
    | false =>
      have hno : ¬ dataBit data n = true := Bool.eq_false_iff.mp hbit
      rw [List.filter_cons_of_neg hno, List.filter_nil, List.foldl_nil, Bool.false_and, Bool.xor_false]

theorem toeplitzDefined_getMsbD (keylen : ℕ) (key : ℕ → UInt8) (data : List UInt8) (ht : t < 32) :
    (toeplitzDefined keylen key data).getMsbD t =
      share (definedKeyBit keylen key) (dataBit data) 0 (8 * data.length) t :=
  windows_getMsbD keylen key data ht _

/-! ## Linearity -/

theorem dataBit_zipWith (hlength : other.length = data.length) (n : ℕ) :
    dataBit (List.zipWith (· ^^^ ·) data other) n = (dataBit data n ^^ dataBit other n) := by
  have hget : (List.zipWith (· ^^^ ·) data other).getD (n / 8) 0 = data.getD (n / 8) 0 ^^^ other.getD (n / 8) 0 := by
    rw [List.getD_eq_getElem?_getD, List.getD_eq_getElem?_getD, List.getD_eq_getElem?_getD, List.getElem?_zipWith]
    by_cases hn : n / 8 < data.length
    · rw [List.getElem?_eq_getElem hn, List.getElem?_eq_getElem (hlength ▸ hn)]
      rfl
    · rw [List.getElem?_eq_none (Nat.le_of_not_lt hn), List.getElem?_eq_none (hlength ▸ Nat.le_of_not_lt hn)]
      rfl
  rw [dataBit, hget, byteBit, UInt8.toBitVec_xor, BitVec.getMsbD_xor]
  rfl

/-- INTERNAL: a sum over an exclusive or is the exclusive or of the sums, whatever the key is. -/
theorem toeplitzHash_xor (keylen : ℕ) (key : ℕ → UInt8) (hlength : other.length = data.length) :
    toeplitzHash keylen key (List.zipWith (· ^^^ ·) data other) =
      toeplitzHash keylen key data ^^^ toeplitzHash keylen key other := by
  have hzip : (List.zipWith (· ^^^ ·) data other).length = data.length := by
    rw [List.length_zipWith, hlength, Nat.min_self]
  apply BitVec.eq_of_getMsbD_eq
  intro t ht
  rw [BitVec.getMsbD_xor, toeplitzHash_read _ _ _ t ht, toeplitzHash_read _ _ _ t ht, toeplitzHash_read _ _ _ t ht, hzip,
    hlength, share, share, share, ← xorSum_xor]
  apply xorSum_congr
  intro n _
  rw [dataBit_zipWith hlength, Bool.and_xor_distrib_right]

/-! ## Both -/

theorem eq_false_of_eq_xor : ∀ {a b : Bool}, a = (a ^^ b) → b = false := by decide

/-- INTERNAL: a key bit that is read is the defined one, and in the second round a bit of the key's beginning. -/
theorem readKeyBit_eq (hmin : 4 ≤ keylen) (hmax : keylen < 2 ^ 32) (key : ℕ → UInt8) {n : ℕ} (hn : n < 2 ^ 35 + 32) :
    readKeyBit keylen key n = (definedKeyBit keylen key n ^^ (decide (2 ^ 35 ≤ n) && keyBit key (n - 2 ^ 35))) := by
  by_cases hsecond : 2 ^ 35 ≤ n
  · have hwrap : n % 2 ^ 35 = n - 2 ^ 35 := by omega
    rw [readKeyBit, definedKeyBit, hwrap, decide_eq_true (show n < 32 ∨ n / 8 % 2 ^ 32 < keylen by omega),
      decide_eq_false (show ¬ n / 8 < keylen by omega), decide_eq_true hsecond, Bool.false_and, Bool.false_xor]
  · have hbound : (n < 32 ∨ n / 8 < keylen) ↔ n / 8 < keylen := by omega
    rw [readKeyBit_of_lt (by omega), hashKeyBit, decide_eq_decide.mpr hbound, decide_eq_false hsecond, Bool.false_and,
      Bool.xor_false]
    rfl

/-- INTERNAL: the hash and the defined one differ by the share of the second round. -/
theorem toeplitzHash_getMsbD_defined (hmin : 4 ≤ keylen) (hmax : keylen < 2 ^ 32) (key : ℕ → UInt8)
    (hdata : data.length < 2 ^ 32) (ht : t < 32) :
    (toeplitzHash keylen key data).getMsbD t = ((toeplitzDefined keylen key data).getMsbD t ^^
      xorSum (fun n => dataBit data (2 ^ 35 - 32 + n) && secondKeyBit key (n + t))
        (8 * (data.length - (2 ^ 32 - 4)))) := by
  have hread : share (readKeyBit keylen key) (dataBit data) 0 (8 * data.length) t =
      (share (definedKeyBit keylen key) (dataBit data) 0 (8 * data.length) t ^^
        xorSum (fun n => dataBit data n && (decide (2 ^ 35 ≤ n + t) && keyBit key (n + t - 2 ^ 35)))
          (8 * data.length)) := by
    rw [share, share, ← xorSum_xor]
    apply xorSum_congr
    intro n hn
    rw [Nat.zero_add, readKeyBit_eq hmin hmax key (by omega), Bool.and_xor_distrib_left]
  rw [toeplitzHash_read _ _ _ t ht, toeplitzDefined_getMsbD _ _ _ ht, hread]
  refine congrArg (xor _) ?_
  by_cases hshort : data.length ≤ 2 ^ 32 - 4
  · rw [Nat.sub_eq_zero_of_le hshort, Nat.mul_zero]
    apply xorSum_eq_false
    intro n hn
    rw [decide_eq_false (by omega), Bool.false_and, Bool.and_false]
  · -- the bits before byte 2^32 - 4 see nothing of the second round
    have hsplit : 8 * data.length = (2 ^ 35 - 32) + 8 * (data.length - (2 ^ 32 - 4)) := by omega
    rw [hsplit, xorSum_add, xorSum_eq_false fun n hn => ?_, Bool.false_xor]
    · apply xorSum_congr
      intro n _
      have hindex : 2 ^ 35 - 32 + n + t - 2 ^ 35 = n + t - 32 := by omega
      have hbound : 2 ^ 35 ≤ 2 ^ 35 - 32 + n + t ↔ 32 ≤ n + t := by omega
      rw [hindex, decide_eq_decide.mpr hbound, secondKeyBit]
    · rw [decide_eq_false (by omega), Bool.false_and, Bool.and_false]

/-- INTERNAL: the hash is the defined one, and linear, if and only if the second round adds nothing. -/
theorem toeplitzRight_iff (hmin : 4 ≤ keylen) (hmax : keylen < 2 ^ 32) (key : ℕ → UInt8)
    (hdata : data.length < 2 ^ 32) :
    ToeplitzRight keylen key data ↔ ToeplitzSafe key data := by
  constructor
  · rintro ⟨hdefined, -⟩ t ht
    have hbit := toeplitzHash_getMsbD_defined hmin hmax key hdata ht
    rw [hdefined] at hbit
    exact eq_false_of_eq_xor hbit
  · intro hsafe
    refine ⟨BitVec.eq_of_getMsbD_eq fun t ht => ?_, fun other hlength => toeplitzHash_xor keylen key hlength⟩
    rw [toeplitzHash_getMsbD_defined hmin hmax key hdata ht, hsafe t ht, Bool.xor_false]

/-- The hash of data of at most 2^32 - 4 bytes is the defined one, and linear, for every key.
SOURCE: lib/ff_dpdk_if.c:2610-2631 -/
theorem toeplitz_right {keylen : ℕ} (hmin : 4 ≤ keylen) (hmax : keylen < 2 ^ 32) (key : ℕ → UInt8)
    {data : List UInt8} (hdata : data.length ≤ 2 ^ 32 - 4) : ToeplitzRight keylen key data := by
  refine (toeplitzRight_iff hmin hmax key (by omega)).mpr fun t _ => ?_
  rw [Nat.sub_eq_zero_of_le hdata]
  rfl

/-- The default key, and the addresses and ports of a flow. -/
theorem toeplitz_right_flow :
    ToeplitzRight 40 (keyBytes defaultRsskey40bytes) (bytes32 1 ++ bytes32 2 ++ bytes16 80 ++ bytes16 1024) := by
  refine toeplitz_right (by omega) (by omega) _ ?_
  exact Nat.le_of_lt (Nat.lt_of_le_of_lt (Nat.le_of_eq rfl) (show 12 < 2 ^ 32 - 4 by omega))

/-- 2^32 - 4 bytes of zeros, and a byte whose second bit is set. -/
def longData : List UInt8 := List.replicate (2 ^ 32 - 4) 0 ++ [0x40]

/-- For the long data the first bit of the key is in the window again. -/
theorem toeplitz_second_round :
    ¬ ∀ (keylen : ℕ), 4 ≤ keylen → keylen < 2 ^ 32 → ∀ (key : ℕ → UInt8) (data : List UInt8), data.length < 2 ^ 32 →
      ToeplitzRight keylen key data := by
  intro h
  have hlength : longData.length = 2 ^ 32 - 4 + 1 := by
    rw [longData, List.length_append, List.length_replicate]
    rfl
  obtain ⟨hdefined, -⟩ := h 4 (by omega) (by omega) (fun _ => 0xff) longData (by omega)
  have hmax : longData.length < 2 ^ 32 := by omega
  have hbit := toeplitzHash_getMsbD_defined (Nat.le_refl 4) (by omega) (fun _ => 0xff) hmax (show 31 < 32 by omega)
  have hlast : ∀ n, dataBit longData (2 ^ 35 - 32 + n) = dataBit [0x40] n := fun n => by
    have happend := dataBit_append_right (List.replicate (2 ^ 32 - 4) 0) [0x40] n
    rw [List.length_replicate] at happend
    rwa [show 8 * (2 ^ 32 - 4) = 2 ^ 35 - 32 by omega] at happend
  have hcount : 8 * (longData.length - (2 ^ 32 - 4)) = 8 := by omega
  rw [hdefined, hcount, xorSum_congr fun n _ => by rw [hlast]] at hbit
  have hzero := eq_false_of_eq_xor hbit
  exact absurd hzero (by decide)

end FStack.Analysis
