import Mathlib.Algebra.BigOperators.Group.Finset.Basic
import Mathlib.Data.Fintype.Basic

/-!
# Counting what tables hold

A table of optional entries is counted through its first `n` slots (`slots`) or through all of
its places (`occurrences`).  An update exchanges one entry for another, and a sum over tables
changes by what one of them changes (`sum_exchange`), so the place of every entry can be
followed by adding up counts.
-/

set_option autoImplicit false

namespace FStack.Prelude

/-- A sum of which one term is exchanged. -/
theorem sum_exchange_on {ι T : Type} [DecidableEq ι] (s : Finset ι) (g : T → ℕ) (f : ι → T) {i : ι}
    (hi : i ∈ s) (x : T) :
    ∑ j ∈ s, g (Function.update f i x j) + g (f i) = ∑ j ∈ s, g (f j) + g x := by
  have hold : ∑ j ∈ s, g (f j) = g (f i) + ∑ j ∈ s.erase i, g (f j) :=
    (Finset.add_sum_erase _ _ hi).symm
  have hnew : ∑ j ∈ s, g (Function.update f i x j) =
      g x + ∑ j ∈ s.erase i, g (Function.update f i x j) := by
    rw [← Finset.add_sum_erase _ _ hi, Function.update_self]
  have hrest : ∑ j ∈ s.erase i, g (Function.update f i x j) = ∑ j ∈ s.erase i, g (f j) := by
    apply Finset.sum_congr rfl
    intro j hj
    rw [Function.update_of_ne (Finset.ne_of_mem_erase hj)]
  omega

theorem sum_exchange {ι T : Type} [Fintype ι] [DecidableEq ι] (g : T → ℕ) (f : ι → T) (i : ι)
    (x : T) : ∑ j, g (Function.update f i x j) + g (f i) = ∑ j, g (f j) + g x :=
  sum_exchange_on Finset.univ g f (Finset.mem_univ i) x

variable {α β : Type}

/-- Whether an entry is `a`, as a number. -/
def holds [DecidableEq α] (a : α) (o : Option α) : ℕ := if o = some a then 1 else 0

@[simp] theorem holds_none [DecidableEq α] (a : α) : holds a none = 0 := rfl

theorem count_toList [DecidableEq α] (a : α) (o : Option α) : o.toList.count a = holds a o := by
  cases o with
  | none => rfl
  | some b =>
    by_cases h : b = a
    · simp [holds, h]
    · simp [holds, h]

/-- In how many places of a finite table `a` stands. -/
def occurrences {ι : Type} [Fintype ι] [DecidableEq α] (f : ι → Option α) (a : α) : ℕ :=
  ∑ i, holds a (f i)

theorem occurrences_update {ι : Type} [Fintype ι] [DecidableEq ι] [DecidableEq α]
    (f : ι → Option α) (i : ι) (o : Option α) (a : α) :
    occurrences (Function.update f i o) a + holds a (f i) = occurrences f a + holds a o :=
  sum_exchange (holds a) f i o

/-- The entries of the slots from `i` on, `n` of them. -/
def slots (f : ℕ → Option α) (i n : ℕ) : List α := (List.range' i n).filterMap f

@[simp] theorem slots_zero (f : ℕ → Option α) (i : ℕ) : slots f i 0 = [] := rfl

theorem slots_succ (f : ℕ → Option α) (i n : ℕ) :
    slots f i (n + 1) = slots f i n ++ (f (i + n)).toList := by
  rw [slots, List.range'_concat, List.filterMap_append, slots, Nat.one_mul]
  cases h : f (i + n) with
  | none => simp [h]
  | some a => simp [h]

theorem slots_add (f : ℕ → Option α) (i m n : ℕ) :
    slots f i (m + n) = slots f i m ++ slots f (i + m) n := by
  induction n with
  | zero => simp
  | succ n ih =>
    rw [← Nat.add_assoc, slots_succ, ih, slots_succ, List.append_assoc, Nat.add_assoc]

theorem slots_congr {f g : ℕ → Option α} {i n : ℕ} (h : ∀ j, i ≤ j → j < i + n → f j = g j) :
    slots f i n = slots g i n := by
  induction n with
  | zero => rfl
  | succ n ih =>
    rw [slots_succ, slots_succ, ih (fun j h1 h2 => h j h1 (by omega)), h _ (by omega) (by omega)]

theorem slots_update_of_le (f : ℕ → Option α) (n k : ℕ) (o : Option α) (h : n ≤ k) :
    slots (Function.update f k o) 0 n = slots f 0 n := by
  apply slots_congr
  intro j _ hj
  rw [Function.update_of_ne (by omega)]

/-- Filling the next slot appends its entry. -/
theorem slots_update_succ (f : ℕ → Option α) (n : ℕ) (o : Option α) :
    slots (Function.update f n o) 0 (n + 1) = slots f 0 n ++ o.toList := by
  rw [slots_succ, slots_update_of_le f n n o (by omega), Nat.zero_add, Function.update_self]

end FStack.Prelude
