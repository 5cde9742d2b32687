import Mathlib.Data.List.Nodup

/-!
# Things that are free or out

A pool hands out things and takes them back.  `Pooled all free out` says that the things of the pool are those that are
free and those that are out, each of them once.
-/

set_option autoImplicit false

namespace FStack.Prelude

variable {α : Type} {all free out : List α} {a : α}

/-- Every thing of the pool is free or out, once. -/
def Pooled (all free out : List α) : Prop := (free ++ out).Perm all

theorem Pooled.take (h : Pooled all (a :: free) out) : Pooled all free (a :: out) :=
  List.perm_middle.trans h

theorem Pooled.give {out' : List α} (h : Pooled all free out) (hout : out.Perm (a :: out')) :
    Pooled all (a :: free) out' :=
  List.perm_middle.symm.trans ((hout.symm.append_left free).trans h)

theorem Pooled.perm_out {out' : List α} (h : Pooled all free out) (hout : out.Perm out') : Pooled all free out' :=
  (hout.symm.append_left free).trans h

theorem Pooled.nodup_out (h : Pooled all free out) (hall : all.Nodup) : out.Nodup :=
  (List.nodup_append.mp (h.nodup_iff.mpr hall)).2.1

theorem Pooled.mem_of_out (h : Pooled all free out) (ha : a ∈ out) : a ∈ all :=
  h.mem_iff.mp (List.mem_append_right free ha)

theorem Pooled.mem_of_free (h : Pooled all free out) (ha : a ∈ free) : a ∈ all :=
  h.mem_iff.mp (List.mem_append_left out ha)

theorem Pooled.length (h : Pooled all free out) : free.length + out.length = all.length := by
  rw [← List.length_append]
  exact h.length_eq

end FStack.Prelude
