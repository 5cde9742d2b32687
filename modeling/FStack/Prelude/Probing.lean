import Mathlib.Data.ZMod.Defs

/-!
# Open addressing with wraparound

A table of `N` slots, each free or holding a key.  A key's slot is looked for from
its hash value on, one slot after another and around the end, until a slot is free
or holds the key.

`Probed` is the invariant of a table that is only ever filled: the search for a key
that is in the table ends at its slot.  It gives that no key is in two slots, and
filling the slot at which a search ended keeps it (`Probed.fill`).
-/

set_option autoImplicit false

namespace FStack.Prelude

/-- The first slot from `i` on at which the search stops, looking at `fuel` slots. -/
def probe {N : ℕ} [NeZero N] (stop : Fin N → Bool) : ℕ → Fin N → Option (Fin N)
  | 0, _ => none
  | fuel + 1, i => if stop i then some i else probe stop fuel (i + 1)

section Probe

variable {N : ℕ} [NeZero N] {stop stop' : Fin N → Bool}

theorem probe_stop {fuel : ℕ} {i r : Fin N} (h : probe stop fuel i = some r) :
    stop r = true := by
  induction fuel generalizing i with
  | zero => simp [probe] at h
  | succ fuel ih =>
    rw [probe] at h
    by_cases hi : stop i = true
    · rw [if_pos hi] at h
      cases h
      exact hi
    · rw [if_neg hi] at h
      exact ih h

/-- A search that stops at fewer slots, but still where it stopped, ends there. -/
theorem probe_of_le (hle : ∀ j, stop' j = true → stop j = true) {fuel : ℕ} {i r : Fin N}
    (h : probe stop fuel i = some r) (hr : stop' r = true) : probe stop' fuel i = some r := by
  induction fuel generalizing i with
  | zero => simp [probe] at h
  | succ fuel ih =>
    rw [probe] at h ⊢
    by_cases hi : stop i = true
    · rw [if_pos hi] at h
      cases h
      rw [if_pos hr]
    · rw [if_neg hi] at h
      have hi' : ¬ stop' i = true := fun hs => hi (hle i hs)
      rw [if_neg hi']
      exact ih h

/-- A search that never stops has looked at every slot. -/
theorem not_stop_of_probe_eq_none {i : Fin N} (h : probe stop N i = none) (j : Fin N) :
    stop j = false := by
  have hvisit : ∀ (fuel : ℕ) (i : Fin N), probe stop fuel i = none →
      ∀ d < fuel, stop (i + Fin.ofNat N d) = false := by
    intro fuel
    induction fuel with
    | zero => simp
    | succ fuel ih =>
      intro i hnone d hd
      rw [probe] at hnone
      by_cases hi : stop i = true
      · simp [hi] at hnone
      rw [if_neg hi] at hnone
      cases d with
      | zero => simpa using hi
      | succ d =>
        have := ih (i + 1) hnone d (by omega)
        rwa [show i + Fin.ofNat N (d + 1) = i + 1 + Fin.ofNat N d from ?_]
        ext
        simp only [Fin.val_add, Fin.ofNat, Fin.val_one', Nat.add_mod_mod, Nat.mod_add_mod]
        congr 1
        omega
  have hj := hvisit N i h (j - i).val (j - i).isLt
  have hval : Fin.ofNat N (j - i).val = j - i := by simp
  rwa [hval, add_sub_cancel] at hj

end Probe

section Table

variable {N : ℕ} [NeZero N] {κ : Type} [DecidableEq κ]

/-- The search for `k` stops at a free slot and at the slot of `k`. -/
def stopAt (keys : Fin N → Option κ) (k : κ) (i : Fin N) : Bool :=
  decide (keys i = none ∨ keys i = some k)

/-- Where the search for `k` ends. -/
def search (hash : κ → Fin N) (keys : Fin N → Option κ) (k : κ) : Option (Fin N) :=
  probe (stopAt keys k) N (hash k)

/-- The search for a key in the table ends at its slot. -/
def Probed (hash : κ → Fin N) (keys : Fin N → Option κ) : Prop :=
  ∀ i k, keys i = some k → search hash keys k = some i

variable {hash : κ → Fin N} {keys : Fin N → Option κ}

theorem Probed.empty (h : ∀ i, keys i = none) : Probed hash keys := by
  intro i k hk
  simp [h i] at hk

theorem search_free_or {k : κ} {i : Fin N} (h : search hash keys k = some i) :
    keys i = none ∨ keys i = some k := by
  have := probe_stop h
  simpa [stopAt] using this

/-- A search fails exactly if every slot is taken by another key. -/
theorem search_eq_none_iff {k : κ} :
    search hash keys k = none ↔ ∀ i, keys i ≠ none ∧ keys i ≠ some k := by
  constructor
  · intro h i
    have := not_stop_of_probe_eq_none h i
    simpa [stopAt] using this
  · intro h
    cases hs : search hash keys k with
    | none => rfl
    | some i =>
      rcases search_free_or hs with hfree | hk
      · exact absurd hfree (h i).1
      · exact absurd hk (h i).2

/-- Storing the key where its search ended keeps the invariant. -/
theorem Probed.fill (hp : Probed hash keys) {k : κ} {i : Fin N}
    (hs : search hash keys k = some i) : Probed hash (Function.update keys i (some k)) := by
  intro j k' hj
  by_cases hkk : k' = k
  · -- the key just stored: its search stops at the same slots as before
    subst hkk
    have hji : j = i := by
      by_contra hne
      rw [Function.update_of_ne hne] at hj
      exact hne (Option.some.inj ((hp j k' hj).symm.trans hs))
    subst hji
    apply probe_of_le _ hs (by simp [stopAt])
    intro m hm
    by_cases hmj : m = j
    · subst hmj
      exact probe_stop hs
    · simpa [stopAt, Function.update_of_ne hmj] using hm
  · -- another key: the slot that was filled no longer stops its search
    have hji : j ≠ i := by
      rintro rfl
      simp only [Function.update_self, Option.some.injEq] at hj
      exact hkk hj.symm
    rw [Function.update_of_ne hji] at hj
    apply probe_of_le _ (hp j k' hj) (by simp [stopAt, Function.update_of_ne hji, hj])
    intro m hm
    by_cases hmi : m = i
    · subst hmi
      simp [stopAt, Ne.symm hkk] at hm
    · simpa [stopAt, Function.update_of_ne hmi] using hm

end Table

end FStack.Prelude
