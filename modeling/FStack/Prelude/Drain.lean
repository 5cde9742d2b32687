import Mathlib.Data.List.Nodup
import Mathlib.Data.List.Perm.Basic

/-!
# Loops that empty a container

A loop takes the first entry of a container and deletes it, until there is none.  Whether deleting an entry also takes
it out of the container is up to the container: the loop may find an entry that it has deleted before.

`drained_iff` says when the loop ends with every entry deleted once: it is so if and only if the deletion of each entry
takes it out.
-/

set_option autoImplicit false

namespace FStack.Prelude

variable {σ α : Type}

/-- How such a loop ends: the entries that were deleted in order, or an entry that was found again. -/
inductive DrainEnd (α : Type) where
  | done (deleted : List α)
  | dangling (entry : α)

section

variable [DecidableEq α]

/-- The loop, for at most so many entries. -/
def drain (first : σ → Option α) (delete : σ → α → σ) : ℕ → σ → List α → Option (DrainEnd α)
  | 0, _, _ => none
  | fuel + 1, s, deleted =>
    match first s with
    | none => some (.done deleted)
    | some e => if e ∈ deleted then some (.dangling e) else drain first delete fuel (delete s e) (deleted ++ [e])

/-- The loop ends, and each entry was deleted once. -/
def Drained (first : σ → Option α) (delete : σ → α → σ) (s : σ) (entries : List α) : Prop :=
  ∃ fuel deleted, drain first delete fuel s [] = some (.done deleted) ∧ deleted.Perm entries

variable {first : σ → Option α} {delete : σ → α → σ} {entries : σ → List α} {Safe : α → Prop}

/-- If every deletion takes its entry out, the loop goes through the entries. -/
theorem drain_all (hfirst : ∀ s, first s = (entries s).head?)
    (hsafe : ∀ s e rest, entries s = e :: rest → Safe e → entries (delete s e) = rest) (s : σ) (deleted : List α)
    (hnodup : (deleted ++ entries s).Nodup) (h : ∀ e ∈ entries s, Safe e) :
    drain first delete ((entries s).length + 1) s deleted = some (.done (deleted ++ entries s)) := by
  induction hentries : entries s generalizing s deleted with
  | nil =>
    unfold drain
    rw [hfirst, hentries]
    simp
  | cons e rest ih =>
    rw [hentries] at hnodup h
    have hnew : e ∉ deleted := fun hmem =>
      (List.nodup_append.mp hnodup).2.2 e hmem e List.mem_cons_self rfl
    have hrest := hsafe s e rest hentries (h e List.mem_cons_self)
    unfold drain
    rw [hfirst, hentries, List.head?_cons]
    dsimp only
    rw [if_neg hnew, List.length_cons]
    have hgo := ih (delete s e) (deleted ++ [e])
      (by rw [hrest, List.append_assoc]; exact hnodup)
      (by rw [hrest]; exact fun x hx => h x (List.mem_cons_of_mem _ hx)) hrest
    rw [hgo, List.append_assoc]
    rfl

/-- If a deletion leaves its entry in its place, the loop finds it again. -/
theorem drain_dangling (hfirst : ∀ s, first s = (entries s).head?)
    (hsafe : ∀ s e rest, entries s = e :: rest → Safe e → entries (delete s e) = rest)
    (hstays : ∀ s e rest, entries s = e :: rest → ¬ Safe e → (entries (delete s e)).head? = some e) (s : σ)
    (h : ∃ e ∈ entries s, ¬ Safe e) (fuel : ℕ) (deleted result : List α) :
    drain first delete fuel s deleted ≠ some (.done result) := by
  induction fuel generalizing s deleted with
  | zero => exact nofun
  | succ fuel ih =>
    cases hentries : entries s with
    | nil =>
      obtain ⟨e, he, -⟩ := h
      rw [hentries] at he
      cases he
    | cons e rest =>
      unfold drain
      rw [hfirst, hentries, List.head?_cons]
      dsimp only
      by_cases hmem : e ∈ deleted
      · rw [if_pos hmem]
        exact nofun
      · rw [if_neg hmem]
        by_cases he : Safe e
        · apply ih
          rw [hsafe s e rest hentries he]
          obtain ⟨x, hx, hnot⟩ := h
          rw [hentries] at hx
          rcases List.mem_cons.mp hx with rfl | hx
          · exact absurd he hnot
          · exact ⟨x, hx, hnot⟩
        · cases fuel with
          | zero => exact nofun
          | succ fuel =>
            unfold drain
            rw [hfirst, hstays s e rest hentries he]
            dsimp only
            rw [if_pos (List.mem_append_right _ (List.mem_singleton_self e))]
            exact nofun

theorem drained_iff (Safe : α → Prop) (hfirst : ∀ s, first s = (entries s).head?)
    (hsafe : ∀ s e rest, entries s = e :: rest → Safe e → entries (delete s e) = rest)
    (hstays : ∀ s e rest, entries s = e :: rest → ¬ Safe e → (entries (delete s e)).head? = some e) {s : σ}
    (hnodup : (entries s).Nodup) : Drained first delete s (entries s) ↔ ∀ e ∈ entries s, Safe e := by
  constructor
  · rintro ⟨fuel, deleted, hdone, -⟩
    by_contra hnot
    push Not at hnot
    exact drain_dangling hfirst hsafe hstays s hnot fuel [] deleted hdone
  · intro h
    exact ⟨_, _, drain_all hfirst hsafe s [] hnodup h, List.Perm.refl _⟩

end

end FStack.Prelude
