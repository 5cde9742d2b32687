import Mathlib.Data.List.Basic

/-!
# A stream divided over files

A writer appends what comes to the present list, and starts a new list when the present one is full.  `rotated` is the
lists it leaves behind, the present one last.

Nothing is lost or doubled (`flatten_rotated`), every list but the last is full (`full_of_rotated`), and a list is
closed as soon as it is full (`not_full_of_rotated`).
-/

set_option autoImplicit false

namespace FStack.Prelude

variable {α : Type} (full : List α → Prop) [DecidablePred full]

/-- The lists over which a stream is divided, when `cur` is the present one. -/
def rotated (cur : List α) : List α → List (List α)
  | [] => [cur]
  | a :: as => if full (cur ++ [a]) then (cur ++ [a]) :: rotated [] as else rotated (cur ++ [a]) as

@[simp] theorem rotated_nil (cur : List α) : rotated full cur [] = [cur] := rfl

theorem rotated_of_full {cur : List α} {a : α} (h : full (cur ++ [a])) (as : List α) :
    rotated full cur (a :: as) = (cur ++ [a]) :: rotated full [] as := by
  rw [rotated, if_pos h]

theorem rotated_of_not_full {cur : List α} {a : α} (h : ¬ full (cur ++ [a])) (as : List α) :
    rotated full cur (a :: as) = rotated full (cur ++ [a]) as := by
  rw [rotated, if_neg h]

theorem rotated_ne_nil (cur as : List α) : rotated full cur as ≠ [] := by
  induction as generalizing cur with
  | nil => simp
  | cons a as ih =>
    by_cases hfull : full (cur ++ [a])
    · rw [rotated_of_full full hfull]
      exact List.cons_ne_nil _ _
    · rw [rotated_of_not_full full hfull]
      exact ih (cur ++ [a])

/-- The stream is what the lists hold, in order. -/
theorem flatten_rotated (cur as : List α) : (rotated full cur as).flatten = cur ++ as := by
  induction as generalizing cur with
  | nil => simp
  | cons a as ih =>
    by_cases hfull : full (cur ++ [a])
    · rw [rotated_of_full full hfull, List.flatten_cons, ih, List.nil_append, List.append_assoc, List.singleton_append]
    · rw [rotated_of_not_full full hfull, ih, List.append_assoc, List.singleton_append]

/-- A list that is not the last one is full. -/
theorem full_of_rotated {cur as l : List α} {before after : List (List α)} (hafter : after ≠ [])
    (h : rotated full cur as = before ++ l :: after) : full l := by
  induction as generalizing cur before with
  | nil =>
    have hlength : 1 = before.length + (after.length + 1) := by simpa using congrArg List.length h
    have hpos : 0 < after.length := List.length_pos_iff.mpr hafter
    omega
  | cons a as ih =>
    by_cases hfull : full (cur ++ [a])
    · rw [rotated_of_full full hfull] at h
      cases before with
      | nil =>
        obtain ⟨rfl, -⟩ := List.cons.inj h
        exact hfull
      | cons first before => exact ih (List.cons.inj h).2
    · rw [rotated_of_not_full full hfull] at h
      exact ih h

/-- A list that has an element was not full before its last one came. -/
theorem not_full_of_rotated {cur as l : List α} {a : α} {before after : List (List α)} (hcur : cur = [] ∨ ¬ full cur)
    (h : rotated full cur as = before ++ (l ++ [a]) :: after) : l = [] ∨ ¬ full l ∨ cur = l ++ [a] := by
  induction as generalizing cur before with
  | nil =>
    cases before with
    | nil => exact .inr (.inr (List.cons.inj h).1)
    | cons first before =>
      have hlength : 1 = before.length + 1 + (after.length + 1) := by simpa using congrArg List.length h
      omega
  | cons b as ih =>
    by_cases hfull : full (cur ++ [b])
    · rw [rotated_of_full full hfull] at h
      cases before with
      | nil =>
        obtain ⟨hl, -⟩ := List.append_inj' (List.cons.inj h).1 rfl
        rw [← hl]
        exact hcur.imp_right .inl
      | cons first before =>
        refine (ih (.inl rfl) (List.cons.inj h).2).imp_right (Or.imp_right fun hnil => ?_)
        exact absurd hnil.symm (List.append_ne_nil_of_right_ne_nil l (List.cons_ne_nil a []))
    · rw [rotated_of_not_full full hfull] at h
      rcases ih (.inr hfull) h with hl | hl | hl
      · exact .inl hl
      · exact .inr (.inl hl)
      · obtain ⟨rfl, -⟩ := List.append_inj' hl rfl
        exact hcur.imp_right .inl

end FStack.Prelude
