import FStack.Prelude.ByteMemory
import Mathlib.Data.List.Pairwise

/-!
# Regions of a memory

What is copied to regions that are apart from each other can be read there when everything has been copied
(`readAt_placeAll`), also when some of it goes to the fields of one of the regions
(`readAt_placeAll_append`).
-/

set_option autoImplicit false

namespace FStack.Prelude

/-- `len` elements from `addr` on. -/
structure Region where
  addr : ℕ
  len : ℕ
deriving DecidableEq, Repr

namespace Region

/-- No element belongs to both. -/
def Apart (r s : Region) : Prop :=
  r.len = 0 ∨ s.len = 0 ∨ r.addr + r.len ≤ s.addr ∨ s.addr + s.len ≤ r.addr

/-- The elements of `r` belong to `s`. -/
def Inside (r s : Region) : Prop := r.len = 0 ∨ s.addr ≤ r.addr ∧ r.addr + r.len ≤ s.addr + s.len

instance : DecidableRel Apart := fun _ _ => inferInstanceAs (Decidable (_ ∨ _))

instance : DecidableRel Inside := fun _ _ => inferInstanceAs (Decidable (_ ∨ _))

theorem Apart.symm {r s : Region} (h : r.Apart s) : s.Apart r := by
  rw [Apart] at h ⊢
  omega

theorem Apart.of_inside {r r' s : Region} (h : r.Apart s) (hr : r'.Inside r) : r'.Apart s := by
  rw [Apart] at h ⊢
  rw [Inside] at hr
  omega

end Region

section Reads

variable {α : Type}

@[simp] theorem readAt_zero (mem : ℕ → α) (p : ℕ) : readAt mem p 0 = [] := rfl

/-- Memories that agree on a region agree on what is inside of it. -/
theorem readAt_eq_of_inside {mem mem' : ℕ → α} {p n q k : ℕ} (h : readAt mem p n = readAt mem' p n)
    (hlo : p ≤ q) (hhi : q + k ≤ p + n) : readAt mem q k = readAt mem' q k := by
  apply readAt_congr
  intro i hi hik
  have hat := List.map_inj_left.mp h (i - p) (List.mem_range.mpr (by omega))
  rwa [Nat.add_sub_cancel' (by omega)] at hat

/-- A part of what was copied from another memory. -/
theorem readAt_writeAt_readAt {mem mem' : ℕ → α} {p q n k j : ℕ} (h : k + j ≤ n) :
    readAt (writeAt mem p (readAt mem' q n)) (p + k) j = readAt mem' (q + k) j := by
  apply List.map_congr_left
  intro i hi
  rw [List.mem_range] at hi
  have hlt : k + i < n := by omega
  simp [writeAt, readAt, hlt, Nat.add_assoc]

/-- Copying and then changing a part is the same as changing the part and then copying. -/
theorem readAt_writeAt_writeAt (mem mem' : ℕ → α) (p n k : ℕ) (xs : List α) :
    readAt (writeAt (writeAt mem p (readAt mem' 0 n)) (p + k) xs) p n = readAt (writeAt mem' k xs) 0 n := by
  apply List.map_congr_left
  intro i hi
  rw [List.mem_range] at hi
  have hsub : p + i - (p + k) = i - k := by omega
  by_cases hk : k ≤ i
  · simp [writeAt, readAt, hsub, hk, hi]
  · simp [writeAt, readAt, hk, hi]

end Reads

section Placed

variable {α : Type}

/-- Elements that are copied to an address. -/
structure Chunk (α : Type) where
  addr : ℕ
  elems : List α

namespace Chunk

def region (w : Chunk α) : Region := ⟨w.addr, w.elems.length⟩

end Chunk

/-- The memory after everything has been copied, one after the other. -/
def placeAll (mem : ℕ → α) (ws : List (Chunk α)) : ℕ → α :=
  ws.foldl (fun mem w => writeAt mem w.addr w.elems) mem

theorem readAt_writeAt_of_apart {mem : ℕ → α} {r : Region} {w : Chunk α} (h : w.region.Apart r) :
    readAt (writeAt mem w.addr w.elems) r.addr r.len = readAt mem r.addr r.len := by
  rcases h with hw | hr | hbefore | hafter
  · have hnil : w.elems = [] := List.eq_nil_of_length_eq_zero hw
    rw [hnil, writeAt_nil]
  · rw [hr, readAt_zero, readAt_zero]
  · exact readAt_writeAt_of_disjoint (.inr hbefore)
  · exact readAt_writeAt_of_disjoint (.inl hafter)

/-- A region that nothing is copied to is as it was. -/
theorem readAt_placeAll_of_apart {mem : ℕ → α} {r : Region} {ws : List (Chunk α)}
    (h : ∀ w ∈ ws, w.region.Apart r) : readAt (placeAll mem ws) r.addr r.len = readAt mem r.addr r.len := by
  induction ws generalizing mem with
  | nil => rfl
  | cons w ws ih =>
    have hrest : readAt (placeAll (writeAt mem w.addr w.elems) ws) r.addr r.len =
        readAt (writeAt mem w.addr w.elems) r.addr r.len := ih fun v hv => h v (List.mem_cons_of_mem w hv)
    exact hrest.trans (readAt_writeAt_of_apart (h w List.mem_cons_self))

/-- What is copied to regions that are apart is found there. -/
theorem readAt_placeAll {mem : ℕ → α} {ws : List (Chunk α)}
    (h : ws.Pairwise fun v w => v.region.Apart w.region) :
    ∀ w ∈ ws, readAt (placeAll mem ws) w.addr w.elems.length = w.elems := by
  induction ws generalizing mem with
  | nil => exact fun w hw => absurd hw List.not_mem_nil
  | cons v ws ih =>
    obtain ⟨hv, hws⟩ := List.pairwise_cons.mp h
    intro w hw
    rcases List.mem_cons.mp hw with rfl | hw
    · have hrest : readAt (placeAll (writeAt mem w.addr w.elems) ws) w.region.addr w.region.len =
          readAt (writeAt mem w.addr w.elems) w.region.addr w.region.len :=
        readAt_placeAll_of_apart fun u hu => (hv u hu).symm
      exact hrest.trans (readAt_writeAt_self mem w.addr w.elems)
    · exact ih hws w hw

/-- What is copied to the fields of a region, and to regions that are apart from it and from each other, is
found there. -/
theorem readAt_placeAll_append {mem : ℕ → α} {r : Region} {fields ws : List (Chunk α)}
    (hfields : fields.Pairwise fun v w => v.region.Apart w.region)
    (hinside : ∀ w ∈ fields, w.region.Inside r)
    (hws : (r :: ws.map Chunk.region).Pairwise Region.Apart) :
    ∀ w ∈ fields ++ ws, readAt (placeAll mem (fields ++ ws)) w.addr w.elems.length = w.elems := by
  obtain ⟨hr, hws⟩ := List.pairwise_cons.mp hws
  apply readAt_placeAll
  refine List.pairwise_append.mpr ⟨hfields, List.pairwise_map.mp hws, ?_⟩
  intro v hv w hw
  exact (hr w.region (List.mem_map_of_mem hw)).of_inside (hinside v hv)

end Placed

end FStack.Prelude
