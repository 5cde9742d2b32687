import Mathlib.Data.List.Nodup

/-!
# Things that are lent

`thing 0`, `thing 1`, … are handed out one after another, each to a holder, and come back.  `LentOnce` says that
each of the things handed out so far is with one holder or has come back, once.
-/

set_option autoImplicit false

namespace FStack.Prelude

variable {κ ρ : Type} {thing : ℕ → ρ} {n : ℕ} {held : κ → Option ρ} {back : List ρ}

/-- The first `n` things have been handed out: `held` says who has one, and `back` what has come back. -/
structure LentOnce (thing : ℕ → ρ) (n : ℕ) (held : κ → Option ρ) (back : List ρ) : Prop where
  held_known : ∀ k r, held k = some r → ∃ b < n, r = thing b
  held_out : ∀ k r, held k = some r → r ∉ back
  held_unique : ∀ k k' r, held k = some r → held k' = some r → k = k'
  back_known : ∀ r ∈ back, ∃ b < n, r = thing b
  back_nodup : back.Nodup
  covered : ∀ b < n, thing b ∈ back ∨ ∃ k, held k = some (thing b)

theorem LentOnce.start (thing : ℕ → ρ) : LentOnce thing 0 (fun _ : κ => none) [] where
  held_known _ _ h := by cases h
  held_out _ _ h := by cases h
  held_unique _ _ _ h := by cases h
  back_known _ h := by cases h
  back_nodup := List.nodup_nil
  covered _ h := by cases h

/-- A thing that has not been handed out is with nobody. -/
theorem LentOnce.fresh (hthing : Function.Injective thing) (h : LentOnce thing n held back) :
    thing n ∉ back ∧ ∀ k, held k ≠ some (thing n) := by
  have hnew : ∀ b < n, thing n ≠ thing b := fun b hb heq =>
    Nat.ne_of_gt hb (hthing heq)
  constructor
  · intro hback
    obtain ⟨b, hb, heq⟩ := h.back_known _ hback
    exact hnew b hb heq
  · intro k hheld
    obtain ⟨b, hb, heq⟩ := h.held_known k _ hheld
    exact hnew b hb heq

variable [DecidableEq κ]

/-- The next thing goes to somebody who has none. -/
theorem LentOnce.lend (hthing : Function.Injective thing) (h : LentOnce thing n held back) {k : κ}
    (hk : held k = none) :
    LentOnce thing (n + 1) (Function.update held k (some (thing n))) back := by
  obtain ⟨hback, hheld⟩ := h.fresh hthing
  refine ⟨?_, ?_, ?_, ?_, h.back_nodup, ?_⟩
  · intro k' r hr
    by_cases heq : k' = k
    · rw [heq, Function.update_self] at hr
      exact ⟨n, Nat.lt_succ_self n, (Option.some.inj hr).symm⟩
    · rw [Function.update_of_ne heq] at hr
      obtain ⟨b, hb, hrb⟩ := h.held_known k' r hr
      exact ⟨b, Nat.lt_succ_of_lt hb, hrb⟩
  · intro k' r hr
    by_cases heq : k' = k
    · rw [heq, Function.update_self] at hr
      rwa [← Option.some.inj hr]
    · rw [Function.update_of_ne heq] at hr
      exact h.held_out k' r hr
  · intro k₁ k₂ r h₁ h₂
    by_cases heq₁ : k₁ = k <;> by_cases heq₂ : k₂ = k
    · rw [heq₁, heq₂]
    · rw [heq₁, Function.update_self] at h₁
      rw [Function.update_of_ne heq₂, ← Option.some.inj h₁] at h₂
      exact absurd h₂ (hheld k₂)
    · rw [heq₂, Function.update_self] at h₂
      rw [Function.update_of_ne heq₁, ← Option.some.inj h₂] at h₁
      exact absurd h₁ (hheld k₁)
    · rw [Function.update_of_ne heq₁] at h₁
      rw [Function.update_of_ne heq₂] at h₂
      exact h.held_unique k₁ k₂ r h₁ h₂
  · intro r hr
    obtain ⟨b, hb, hrb⟩ := h.back_known r hr
    exact ⟨b, Nat.lt_succ_of_lt hb, hrb⟩
  · intro b hb
    rcases Nat.lt_succ_iff_lt_or_eq.mp hb with hlt | rfl
    · refine (h.covered b hlt).imp_right fun ⟨k', hk'⟩ => ⟨k', ?_⟩
      rw [Function.update_of_ne]
      · exact hk'
      · rintro rfl
        rw [hk] at hk'
        cases hk'
    · exact .inr ⟨k, Function.update_self ..⟩

/-- Somebody gives back what he has. -/
theorem LentOnce.giveBack (h : LentOnce thing n held back) {k : κ} {r : ρ} (hk : held k = some r) :
    LentOnce thing n (Function.update held k none) (back ++ [r]) := by
  have hother : ∀ {k' r'}, Function.update held k none k' = some r' → k' ≠ k ∧ held k' = some r' := by
    intro k' r' hr
    by_cases heq : k' = k
    · rw [heq, Function.update_self] at hr
      cases hr
    · rw [Function.update_of_ne heq] at hr
      exact ⟨heq, hr⟩
  refine ⟨?_, ?_, ?_, ?_, ?_, ?_⟩
  · intro k' r' hr
    exact h.held_known k' r' (hother hr).2
  · intro k' r' hr hmem
    obtain ⟨hne, hheld⟩ := hother hr
    rcases List.mem_append.mp hmem with hmem | hmem
    · exact h.held_out k' r' hheld hmem
    · rw [List.mem_singleton.mp hmem] at hheld
      exact hne (h.held_unique k' k r hheld hk)
  · intro k₁ k₂ r' h₁ h₂
    exact h.held_unique k₁ k₂ r' (hother h₁).2 (hother h₂).2
  · intro r' hr
    rcases List.mem_append.mp hr with hr | hr
    · exact h.back_known r' hr
    · rw [List.mem_singleton.mp hr]
      exact h.held_known k r hk
  · rw [← List.concat_eq_append]
    exact h.back_nodup.concat (h.held_out k r hk)
  · intro b hb
    rcases h.covered b hb with hback | ⟨k', hk'⟩
    · exact .inl (List.mem_append_left _ hback)
    · by_cases heq : k' = k
      · rw [heq, hk] at hk'
        rw [← Option.some.inj hk']
        exact .inl (List.mem_append_right _ (List.mem_singleton_self r))
      · exact .inr ⟨k', by rwa [Function.update_of_ne heq]⟩

end FStack.Prelude
