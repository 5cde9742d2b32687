import Mathlib.Data.List.Basic

/-!
# Writing to an array through a pointer

A `Cursor` is an array with a pointer into it: `put` writes a list where the pointer stands and moves
the pointer behind it.  However the writes are cut into pieces, the array has the concatenation of what
was written, from where the pointer stood at first (`Cursor.Since`).
-/

set_option autoImplicit false

namespace FStack.Prelude

variable {α : Type}

/-- The array `mem` after `xs` is written at `pos`. -/
def writeAt (mem : ℕ → α) (pos : ℕ) (xs : List α) : ℕ → α := fun i =>
  if pos ≤ i then (xs[i - pos]?).getD (mem i) else mem i

@[simp] theorem writeAt_nil (mem : ℕ → α) (pos : ℕ) : writeAt mem pos [] = mem := by
  funext i
  simp [writeAt]

/-- Two writes, the second where the first ends, are one. -/
theorem writeAt_append (mem : ℕ → α) (pos : ℕ) (xs ys : List α) :
    writeAt (writeAt mem pos xs) (pos + xs.length) ys = writeAt mem pos (xs ++ ys) := by
  funext i
  rcases Nat.lt_or_ge i pos with hi | hi
  · have hpos : ¬ pos ≤ i := by omega
    have hend : ¬ pos + xs.length ≤ i := by omega
    simp [writeAt, hpos, hend]
  · rcases Nat.lt_or_ge (i - pos) xs.length with hx | hx
    · have hend : ¬ pos + xs.length ≤ i := by omega
      simp [writeAt, hi, hend, List.getElem?_append_left hx]
    · have hend : pos + xs.length ≤ i := by omega
      have hsub : i - (pos + xs.length) = i - pos - xs.length := by omega
      simp [writeAt, hi, hend, hsub, List.getElem?_eq_none hx, List.getElem?_append_right hx]

/-- What was written at the start can be read there. -/
theorem writeAt_zero_getElem? (mem : ℕ → α) {xs : List α} {i : ℕ} (h : i < xs.length) :
    xs[i]? = some (writeAt mem 0 xs i) := by
  simp [writeAt, List.getElem?_eq_getElem h]

/-- An array, a pointer into it, and what has been written through the pointer. -/
structure Cursor (α : Type) where
  mem : ℕ → α
  pos : ℕ
  written : List α

namespace Cursor

def start (mem : ℕ → α) (pos : ℕ) : Cursor α := ⟨mem, pos, []⟩

/-- `xs` is written, and the pointer moved behind it. -/
def put (c : Cursor α) (xs : List α) : Cursor α :=
  ⟨writeAt c.mem c.pos xs, c.pos + xs.length, c.written ++ xs⟩

@[simp] theorem put_written (c : Cursor α) (xs : List α) : (c.put xs).written = c.written ++ xs := rfl

/-- The cursor has come to where it is from `pos` in `mem`, by writing. -/
structure Since (mem : ℕ → α) (pos : ℕ) (c : Cursor α) : Prop where
  mem_eq : c.mem = writeAt mem pos c.written
  pos_eq : c.pos = pos + c.written.length

theorem since_start (mem : ℕ → α) (pos : ℕ) : Since mem pos (start mem pos) :=
  ⟨by simp [start], by simp [start]⟩

theorem Since.put {mem : ℕ → α} {pos : ℕ} {c : Cursor α} (h : Since mem pos c) (xs : List α) :
    Since mem pos (c.put xs) := by
  refine ⟨?_, ?_⟩
  · rw [put_written, ← writeAt_append, ← h.mem_eq, ← h.pos_eq]
    rfl
  · rw [put_written, List.length_append, ← Nat.add_assoc, ← h.pos_eq]
    rfl

end Cursor

end FStack.Prelude
