import FStack.Prelude.Cursor
import Mathlib.Tactic.Ring

/-!
# Numbers in a memory of bytes

`readAt` is the inverse of `writeAt`: what was written is read back, and a read that a write does not
touch is not changed by it.  Numbers of a fixed width are stored with the least significant byte first
(`readLe`, `writeLe`); a narrow read at the address of a wide number gives its lower half
(`readLe_of_le`).
-/

set_option autoImplicit false

namespace FStack.Prelude

section Bytes

variable {α : Type}

/-- The `n` elements from `pos` on. -/
def readAt (mem : ℕ → α) (pos n : ℕ) : List α := (List.range n).map fun i => mem (pos + i)

@[simp] theorem length_readAt (mem : ℕ → α) (pos n : ℕ) : (readAt mem pos n).length = n := by
  simp [readAt]

theorem readAt_append (mem : ℕ → α) (pos m n : ℕ) :
    readAt mem pos (m + n) = readAt mem pos m ++ readAt mem (pos + m) n := by
  simp [readAt, List.range_add, Nat.add_assoc]

/-- A read depends on the elements it covers. -/
theorem readAt_congr {mem mem' : ℕ → α} {pos n : ℕ}
    (h : ∀ i, pos ≤ i → i < pos + n → mem' i = mem i) : readAt mem' pos n = readAt mem pos n := by
  apply List.map_congr_left
  intro i hi
  rw [List.mem_range] at hi
  exact h (pos + i) (by omega) (by omega)

/-- A write changes nothing outside what it covers. -/
theorem writeAt_of_outside {mem : ℕ → α} {pos i : ℕ} {xs : List α}
    (h : i < pos ∨ pos + xs.length ≤ i) : writeAt mem pos xs i = mem i := by
  by_cases hi : pos ≤ i
  · have hlen : xs.length ≤ i - pos := by omega
    simp [writeAt, hi, List.getElem?_eq_none hlen]
  · simp [writeAt, hi]

theorem readAt_writeAt_self (mem : ℕ → α) (pos : ℕ) (xs : List α) :
    readAt (writeAt mem pos xs) pos xs.length = xs := by
  apply List.ext_getElem
  · simp
  · intro i hi hx
    simp [readAt, writeAt, hx]

theorem readAt_writeAt_of_disjoint {mem : ℕ → α} {pos q n : ℕ} {xs : List α}
    (h : q + n ≤ pos ∨ pos + xs.length ≤ q) :
    readAt (writeAt mem pos xs) q n = readAt mem q n := by
  apply readAt_congr
  intro i hlo hhi
  exact writeAt_of_outside (by omega)

/-- Copying a region onto itself changes nothing. -/
theorem writeAt_readAt_self (mem : ℕ → α) (pos n : ℕ) :
    writeAt mem pos (readAt mem pos n) = mem := by
  funext i
  by_cases hi : i < pos ∨ pos + n ≤ i
  · exact writeAt_of_outside (by simpa using hi)
  · have hlt : i - pos < n := by omega
    have hadd : pos + (i - pos) = i := by omega
    have hpos : pos ≤ i := by omega
    simp [writeAt, readAt, hpos, hlt, hadd]

end Bytes

/-- The `n` bytes of a number, the least significant one first. -/
def leBytes : ℕ → ℕ → List UInt8
  | 0, _ => []
  | n + 1, v => UInt8.ofNat v :: leBytes n (v / 256)

/-- The number that bytes stand for, the least significant one first. -/
def ofLeBytes : List UInt8 → ℕ
  | [] => 0
  | b :: bs => b.toNat + 256 * ofLeBytes bs

@[simp] theorem length_leBytes (n v : ℕ) : (leBytes n v).length = n := by
  induction n generalizing v with
  | zero => rfl
  | succ n ih => simp [leBytes, ih]

theorem ofLeBytes_leBytes (n v : ℕ) : ofLeBytes (leBytes n v) = v % 256 ^ n := by
  induction n generalizing v with
  | zero => simp [leBytes, ofLeBytes, Nat.mod_one]
  | succ n ih =>
    have hbyte : (UInt8.ofNat v).toNat = v % 256 := by simp
    rw [leBytes, ofLeBytes, ih, hbyte, pow_succ', Nat.mod_mul]

theorem ofLeBytes_append (xs ys : List UInt8) :
    ofLeBytes (xs ++ ys) = ofLeBytes xs + 256 ^ xs.length * ofLeBytes ys := by
  induction xs with
  | nil => simp [ofLeBytes]
  | cons x xs ih =>
    rw [List.cons_append, ofLeBytes, ofLeBytes, ih, List.length_cons, pow_succ]
    ring

theorem ofLeBytes_lt (bs : List UInt8) : ofLeBytes bs < 256 ^ bs.length := by
  induction bs with
  | nil => simp [ofLeBytes]
  | cons b bs ih =>
    have hb : b.toNat < 256 := b.toNat_lt
    rw [ofLeBytes, List.length_cons, pow_succ]
    omega

theorem leBytes_ofLeBytes (bs : List UInt8) : leBytes bs.length (ofLeBytes bs) = bs := by
  induction bs with
  | nil => rfl
  | cons b bs ih =>
    have hb : b.toNat < 256 := b.toNat_lt
    have hdiv : (b.toNat + 256 * ofLeBytes bs) / 256 = ofLeBytes bs := by omega
    have hbyte : UInt8.ofNat (b.toNat + 256 * ofLeBytes bs) = b := by
      apply UInt8.toNat_inj.mp
      rw [UInt8.toNat_ofNat']
      omega
    rw [List.length_cons, ofLeBytes, leBytes, hdiv, hbyte, ih]

/-- The number of `n` bytes at `pos`. -/
def readLe (mem : ℕ → UInt8) (pos n : ℕ) : ℕ := ofLeBytes (readAt mem pos n)

/-- The memory after `v` is stored at `pos` as a number of `n` bytes. -/
def writeLe (mem : ℕ → UInt8) (pos n v : ℕ) : ℕ → UInt8 := writeAt mem pos (leBytes n v)

theorem readLe_lt (mem : ℕ → UInt8) (pos n : ℕ) : readLe mem pos n < 256 ^ n := by
  simpa [readLe] using ofLeBytes_lt (readAt mem pos n)

theorem readLe_congr {mem mem' : ℕ → UInt8} {pos n : ℕ}
    (h : ∀ i, pos ≤ i → i < pos + n → mem' i = mem i) : readLe mem' pos n = readLe mem pos n := by
  rw [readLe, readLe, readAt_congr h]

theorem readAt_writeLe_self (mem : ℕ → UInt8) (pos n v : ℕ) :
    readAt (writeLe mem pos n v) pos n = leBytes n v := by
  have hread := readAt_writeAt_self mem pos (leBytes n v)
  rwa [length_leBytes] at hread

theorem readLe_writeLe_self (mem : ℕ → UInt8) (pos n v : ℕ) :
    readLe (writeLe mem pos n v) pos n = v % 256 ^ n := by
  rw [readLe, readAt_writeLe_self, ofLeBytes_leBytes]

theorem writeLe_of_outside {mem : ℕ → UInt8} {pos n v i : ℕ} (h : i < pos ∨ pos + n ≤ i) :
    writeLe mem pos n v i = mem i :=
  writeAt_of_outside (by simpa using h)

theorem readAt_writeLe_of_disjoint {mem : ℕ → UInt8} {pos q n n' v : ℕ}
    (h : q + n' ≤ pos ∨ pos + n ≤ q) :
    readAt (writeLe mem pos n v) q n' = readAt mem q n' :=
  readAt_writeAt_of_disjoint (by simpa using h)

theorem readLe_writeLe_of_disjoint {mem : ℕ → UInt8} {pos q n n' v : ℕ}
    (h : q + n' ≤ pos ∨ pos + n ≤ q) :
    readLe (writeLe mem pos n v) q n' = readLe mem q n' := by
  rw [readLe, readLe, readAt_writeLe_of_disjoint h]

/-- Storing what is there changes nothing. -/
theorem writeLe_readLe_self (mem : ℕ → UInt8) (pos n : ℕ) :
    writeLe mem pos n (readLe mem pos n) = mem := by
  have hbytes := leBytes_ofLeBytes (readAt mem pos n)
  rw [length_readAt] at hbytes
  rw [writeLe, readLe, hbytes, writeAt_readAt_self]

/-- A narrow read at the address of a wider number gives its low part. -/
theorem readLe_of_le (mem : ℕ → UInt8) (pos : ℕ) {m n : ℕ} (h : m ≤ n) :
    readLe mem pos m = readLe mem pos n % 256 ^ m := by
  obtain ⟨k, rfl⟩ := Nat.exists_eq_add_of_le h
  have hlt : ofLeBytes (readAt mem pos m) < 256 ^ m := readLe_lt mem pos m
  rw [readLe, readLe, readAt_append, ofLeBytes_append, length_readAt, Nat.add_mul_mod_self_left,
    Nat.mod_eq_of_lt hlt]

end FStack.Prelude
