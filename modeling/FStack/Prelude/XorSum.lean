import Mathlib.Tactic.Common

/-!
# Sums of bits

The exclusive or of the values of a bit sequence, and the bits of a Toeplitz hash as such
sums: bit `t` of the hash of `data` under the key `K` is the sum of `data n && K (n + t)`.
A hash of a concatenation is the sum of the blocks' shares, each block reading the key from
its own offset, so exchanging two blocks of the same length changes nothing when the key
looks the same from both offsets.  `not_recurrence` shows that a sequence is not the output of a
short shift register.
-/

set_option autoImplicit false

namespace FStack.Prelude

/-- `f 0 ^^ f 1 ^^ ... ^^ f (n - 1)`. -/
def xorSum (f : ℕ → Bool) : ℕ → Bool
  | 0 => false
  | n + 1 => xorSum f n ^^ f n

theorem xorSum_congr {f g : ℕ → Bool} {n : ℕ} (h : ∀ i < n, f i = g i) :
    xorSum f n = xorSum g n := by
  induction n with
  | zero => rfl
  | succ n ih =>
    rw [xorSum, xorSum, ih (fun i hi => h i (by omega)), h n (by omega)]

theorem xorSum_add (f : ℕ → Bool) (m n : ℕ) :
    xorSum f (m + n) = (xorSum f m ^^ xorSum (fun i => f (m + i)) n) := by
  induction n with
  | zero => simp [xorSum]
  | succ n ih => rw [← Nat.add_assoc, xorSum, ih, xorSum, Bool.xor_assoc]

theorem xorSum_eq_false {f : ℕ → Bool} {n : ℕ} (h : ∀ i < n, f i = false) :
    xorSum f n = false := by
  induction n with
  | zero => rfl
  | succ n ih => rw [xorSum, ih (fun i hi => h i (by omega)), h n (by omega), Bool.false_xor]

theorem xorSum_single {f : ℕ → Bool} {i n : ℕ} (hi : i < n) (h : ∀ j < n, j ≠ i → f j = false) :
    xorSum f n = f i := by
  induction n with
  | zero => omega
  | succ n ih =>
    by_cases hn : i = n
    · subst hn
      rw [xorSum, xorSum_eq_false (fun j hj => h j (by omega) (by omega)), Bool.false_xor]
    · rw [xorSum, ih (by omega) (fun j hj => h j (by omega)), h n (by omega) (Ne.symm hn),
        Bool.xor_false]

theorem xorSum_xor (f g : ℕ → Bool) (n : ℕ) :
    xorSum (fun i => f i ^^ g i) n = (xorSum f n ^^ xorSum g n) := by
  induction n with
  | zero => rfl
  | succ n ih =>
    rw [xorSum, xorSum, xorSum, ih, Bool.xor_assoc, Bool.xor_assoc]
    congr 1
    rw [← Bool.xor_assoc, ← Bool.xor_assoc, Bool.xor_comm (f n)]

theorem and_xorSum (b : Bool) (f : ℕ → Bool) (n : ℕ) :
    (b && xorSum f n) = xorSum (fun i => b && f i) n := by
  induction n with
  | zero => simp [xorSum]
  | succ n ih => rw [xorSum, xorSum, ← ih, Bool.and_xor_distrib_left]

theorem xorSum_comm (f : ℕ → ℕ → Bool) (m n : ℕ) :
    xorSum (fun i => xorSum (f i) m) n = xorSum (fun j => xorSum (fun i => f i j) n) m := by
  induction m with
  | zero => exact xorSum_eq_false (fun i _ => rfl)
  | succ m ih =>
    simp only [xorSum]
    rw [xorSum_xor, ih]

/-- A sequence with an index-reversing dual of length `n`, that is weights whose sum against the
sequence from place `k` on is one only for the last `k`, obeys no linear recurrence of an order
below `n`. -/
theorem not_recurrence {s w : ℕ → Bool} {n d : ℕ} (hd : d < n)
    (hdual : ∀ k < n, xorSum (fun i => w i && s (i + k)) n = decide (k = n - 1)) (c : ℕ → Bool) :
    ¬ ∀ i < 2 * n - 1 - d, s (i + d) = xorSum (fun j => c j && s (i + j)) d := by
  intro hrec
  have hone : xorSum (fun i => w i && s (i + (n - 1))) n = true := by
    rw [hdual (n - 1) (by omega)]
    simp
  -- the recurrence writes the same sum through places before the last one
  have hzero : xorSum (fun i => w i && s (i + (n - 1))) n = false := by
    calc xorSum (fun i => w i && s (i + (n - 1))) n
        = xorSum (fun i => xorSum (fun j => c j && (w i && s (i + (n - 1 - d + j)))) d) n := by
          apply xorSum_congr
          intro i hi
          rw [show i + (n - 1) = i + (n - 1 - d) + d by omega, hrec _ (by omega), and_xorSum]
          apply xorSum_congr
          intro j hj
          rw [Bool.and_left_comm, Nat.add_assoc]
      _ = xorSum (fun j => c j && xorSum (fun i => w i && s (i + (n - 1 - d + j))) n) d := by
          rw [xorSum_comm]
          apply xorSum_congr
          intro j hj
          rw [and_xorSum]
      _ = false := by
          apply xorSum_eq_false
          intro j hj
          rw [hdual _ (by omega), decide_eq_false (by omega), Bool.and_false]
  rw [hzero] at hone
  cases hone

/-- What a block of `len` data bits adds to bit `t` of the hash when it stands at bit `off`. -/
def share (K data : ℕ → Bool) (off len t : ℕ) : Bool :=
  xorSum (fun n => data n && K (off + n + t)) len

/-- The share of a block with one bit set is one key bit. -/
theorem share_single {K data : ℕ → Bool} {off len t i : ℕ} (hi : i < len)
    (hone : ∀ n < len, data n = decide (n = i)) : share K data off len t = K (off + i + t) := by
  rw [share, xorSum_single hi]
  · simp [hone i hi]
  · intro j hj hne
    simp [hone j hj, hne]

theorem share_zero {K data : ℕ → Bool} {off len t : ℕ} (hzero : ∀ n < len, data n = false) :
    share K data off len t = false := by
  apply xorSum_eq_false
  intro n hn
  rw [hzero n hn, Bool.false_and]

/-- A block adds the same at two offsets from which the key looks the same. -/
theorem share_congr_off {K data : ℕ → Bool} {off off' len t : ℕ}
    (hK : ∀ n < len, K (off + n + t) = K (off' + n + t)) :
    share K data off len t = share K data off' len t := by
  apply xorSum_congr
  intro n hn
  rw [hK n hn]

end FStack.Prelude
