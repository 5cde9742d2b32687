import Mathlib.Order.Lattice
import Mathlib.Logic.Equiv.Basic
import Mathlib.Tactic.Common

/-!
# Binary heaps in an array

A heap is given by its keys `k : ℕ → κ` at the places `1, …, n`; the parent of the place `i` is `i / 2`.
Sifting exchanges a key with that of its parent, or of its smaller son.  `UpReady` and `DownReady` say
what the keys satisfy while one of them is out of order, and are kept by the exchange.
-/

set_option autoImplicit false

namespace FStack.Prelude

variable {κ : Type} [LinearOrder κ] {k : ℕ → κ} {n p c : ℕ}

/-- No key of a heap is smaller than that of its parent. -/
def HeapOrdered (k : ℕ → κ) (n : ℕ) : Prop :=
  ∀ i, 2 ≤ i → i ≤ n → k (i / 2) ≤ k i

/-- The top of a heap has the smallest key. -/
theorem HeapOrdered.top_le (h : HeapOrdered k n) {i : ℕ} (hi : 1 ≤ i) (hin : i ≤ n) : k 1 ≤ k i := by
  induction i using Nat.strongRecOn with
  | _ i ih =>
    by_cases h1 : i = 1
    · rw [h1]
    · have hparent : k 1 ≤ k (i / 2) := by
        apply ih
        · omega
        · omega
        · omega
      exact hparent.trans (h i (by omega) hin)

/-- Order depends on the keys of the heap only. -/
theorem HeapOrdered.congr {k' : ℕ → κ} (h : HeapOrdered k n) (heq : ∀ i, 1 ≤ i → i ≤ n → k' i = k i) :
    HeapOrdered k' n := by
  intro i hi hin
  rw [heq i (by omega) hin, heq (i / 2) (by omega) (by omega)]
  exact h i hi hin

/-- Only the key at `p` may be smaller than that of its parent, and the sons of `p` have keys that
could stand below the parent of `p`. -/
structure UpReady (k : ℕ → κ) (n p : ℕ) : Prop where
  away : ∀ i, 2 ≤ i → i ≤ n → i ≠ p → k (i / 2) ≤ k i
  grand : ∀ i, 2 ≤ p → i ≤ n → i / 2 = p → k (p / 2) ≤ k i

/-- Only sons of `p` may have smaller keys than `p`, and they have keys that could stand below the
parent of `p`. -/
structure DownReady (k : ℕ → κ) (n p : ℕ) : Prop where
  away : ∀ i, 2 ≤ i → i ≤ n → i / 2 ≠ p → k (i / 2) ≤ k i
  grand : ∀ i, 2 ≤ p → i ≤ n → i / 2 = p → k (p / 2) ≤ k i

theorem UpReady.finish (h : UpReady k n p) (hp : 2 ≤ p → k (p / 2) ≤ k p) : HeapOrdered k n := by
  intro i hi hin
  by_cases hip : i = p
  · rw [hip]
    exact hp (by omega)
  · exact h.away i hi hin hip

theorem DownReady.finish (h : DownReady k n p) (hp : ∀ i, 2 ≤ i → i ≤ n → i / 2 = p → k p ≤ k i) :
    HeapOrdered k n := by
  intro i hi hin
  by_cases hip : i / 2 = p
  · rw [hip]
    exact hp i hi hin hip
  · exact h.away i hi hin hip

/-- A key smaller than that of its parent goes up. -/
theorem UpReady.swap (h : UpReady k n p) (hp : 2 ≤ p) (hpn : p ≤ n) (hlt : k p < k (p / 2)) :
    UpReady (k ∘ Equiv.swap p (p / 2)) n (p / 2) := by
  have hne : p / 2 ≠ p := by omega
  have hdown : (k ∘ Equiv.swap p (p / 2)) p = k (p / 2) := by simp
  have hup : (k ∘ Equiv.swap p (p / 2)) (p / 2) = k p := by simp
  have hother : ∀ i, i ≠ p → i ≠ p / 2 → (k ∘ Equiv.swap p (p / 2)) i = k i := by
    intro i h1 h2
    simp [Equiv.swap_apply_of_ne_of_ne h1 h2]
  constructor
  · intro i hi hin hiq
    by_cases hip : i = p
    · rw [hip, hdown, hup]
      exact hlt.le
    · rw [hother i hip hiq]
      by_cases hpp : i / 2 = p
      · rw [hpp, hdown]
        exact h.grand i hp hin hpp
      · by_cases hpq : i / 2 = p / 2
        · rw [hpq, hup]
          have hsib := h.away i hi hin hip
          rw [hpq] at hsib
          exact hlt.le.trans hsib
        · rw [hother _ hpp hpq]
          exact h.away i hi hin hip
  · intro i hq hin hiq
    rw [hother (p / 2 / 2) (by omega) (by omega)]
    have hqq : k (p / 2 / 2) ≤ k (p / 2) := h.away (p / 2) hq (by omega) hne
    by_cases hip : i = p
    · rw [hip, hdown]
      exact hqq
    · rw [hother i hip (by omega)]
      have hsib := h.away i (by omega) hin hip
      rw [hiq] at hsib
      exact hqq.trans hsib

/-- A key greater than that of its smaller son `c` goes down. -/
theorem DownReady.swap (h : DownReady k n p) (hc : c / 2 = p) (hcn : c ≤ n)
    (hmin : ∀ i, 2 ≤ i → i ≤ n → i / 2 = p → k c ≤ k i) (hlt : k c < k p) :
    DownReady (k ∘ Equiv.swap p c) n c := by
  have hup : (k ∘ Equiv.swap p c) p = k c := by simp
  have hdown : (k ∘ Equiv.swap p c) c = k p := by simp
  have hother : ∀ i, i ≠ p → i ≠ c → (k ∘ Equiv.swap p c) i = k i := by
    intro i h1 h2
    simp [Equiv.swap_apply_of_ne_of_ne h1 h2]
  constructor
  · intro i hi hin hic
    by_cases hpp : i / 2 = p
    · rw [hpp, hup]
      by_cases heq : i = c
      · rw [heq, hdown]
        exact hlt.le
      · rw [hother i (by omega) heq]
        exact hmin i hi hin hpp
    · rw [hother (i / 2) hpp hic]
      by_cases hip : i = p
      · rw [hip, hup]
        exact h.grand c (by omega) hcn hc
      · rw [hother i hip (by omega)]
        exact h.away i hi hin hpp
  · intro i _ hin hic
    rw [hc, hup, hother i (by omega) (by omega)]
    have hbelow := h.away i (by omega) hin (by omega)
    rwa [hic] at hbelow

end FStack.Prelude
