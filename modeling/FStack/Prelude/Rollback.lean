import Mathlib.Data.List.Nodup

/-!
# Actions that are all done or all undone

Each action `i` works on a cell `key i` of a store, and succeeds or fails.  `attempt` performs actions one after the
other up to the first that fails, and `revert` undoes those that were done before it.  An action that has succeeded
excludes every other one from its cell: another action on it fails and leaves the cell as it is.

`revert_attempt_iff` says when the store is as it was: each action that was done is undone by its undo, and the one that
failed has left its cell as it was.
-/

set_option autoImplicit false

namespace FStack.Prelude

variable {ι κ α : Type}

/-- Performs actions up to the first that fails, which is returned with the store. -/
def attempt [DecidableEq κ] (key : ι → κ) (act : ι → α → α × Bool) : List ι → (κ → α) → (κ → α) × Option ι
  | [], store => (store, none)
  | i :: is, store =>
    let r := act i (store (key i))
    if r.2 then attempt key act is (Function.update store (key i) r.1)
    else (Function.update store (key i) r.1, some i)

/-- Undoes actions up to a given one, and whether all of that succeeds. -/
def revert [DecidableEq ι] [DecidableEq κ] (key : ι → κ) (undo : ι → α → α × Bool) (error : ι) :
    List ι → (κ → α) → (κ → α) × Bool
  | [], store => (store, true)
  | i :: is, store =>
    if i = error then (store, true)
    else
      let r := undo i (store (key i))
      let (store, ok) := revert key undo error is (Function.update store (key i) r.1)
      (store, r.2 && ok)

variable (key : ι → κ) (act undo : ι → α → α × Bool)

/-- An action succeeds on a store after others have been done. -/
def Succeeds (store : κ → α) (done : List ι) (i : ι) : Prop :=
  key i ∉ done.map key ∧ (act i (store (key i))).2 = true

/-- A list of actions, each of which is taken or is the first that is not: then the ones that were taken before it are
undone, and it leaves things as they are. -/
def StopsSafely (takes : List ι → ι → Prop) (undone : ι → Prop) (left : List ι → ι → Prop) : List ι → List ι → Prop
  | _, [] => True
  | done, i :: is =>
    takes done i ∧ StopsSafely takes undone left (done ++ [i]) is ∨ ¬ takes done i ∧ (∀ j ∈ done, undone j) ∧ left done i

/-- The store after actions on different cells that have been done. -/
structure DoneOn (store store' : κ → α) (done : List ι) : Prop where
  nodup : (done.map key).Nodup
  succeeds : ∀ i ∈ done, (act i (store (key i))).2 = true
  cell : ∀ i ∈ done, store' (key i) = (act i (store (key i))).1
  other : ∀ k, k ∉ done.map key → store' k = store k

variable {key act undo} {store store' : κ → α} {done is : List ι} {i : ι}

theorem DoneOn.nil : DoneOn key act store store [] where
  nodup := List.nodup_nil
  succeeds := fun _ hi => absurd hi List.not_mem_nil
  cell := fun _ hi => absurd hi List.not_mem_nil
  other := fun _ _ => rfl

/-- One more action is done. -/
theorem DoneOn.snoc [DecidableEq κ] (h : DoneOn key act store store' done) (hi : Succeeds key act store done i) :
    DoneOn key act store (Function.update store' (key i) (act i (store (key i))).1) (done ++ [i]) where
  nodup := by
    rw [List.map_append, List.map_singleton]
    exact List.nodup_append.mpr ⟨h.nodup, List.nodup_singleton _, fun k hk k' hk' => by
      rw [List.mem_singleton.mp hk']
      rintro rfl
      exact hi.1 hk⟩
  succeeds := by
    intro j hj
    rcases List.mem_append.mp hj with hj | hj
    · exact h.succeeds j hj
    · rw [List.mem_singleton.mp hj]
      exact hi.2
  cell := by
    intro j hj
    rcases List.mem_append.mp hj with hj | hj
    · have hne : key j ≠ key i := fun heq => hi.1 (heq ▸ List.mem_map_of_mem hj)
      rw [Function.update_of_ne hne]
      exact h.cell j hj
    · rw [List.mem_singleton.mp hj, Function.update_self]
  other := by
    intro k hk
    rw [List.map_append, List.map_singleton, List.mem_append, List.mem_singleton, not_or] at hk
    rw [Function.update_of_ne hk.2]
    exact h.other k hk.1

/-- INTERNAL: undoing actions on different cells, each of which is as its action has left it. -/
theorem revert_of_done [DecidableEq ι] [DecidableEq κ] (undo : ι → α → α × Bool) {error : ι} (post : List ι)
    (herror : error ∉ is) (hnodup : (is.map key).Nodup)
    (hdone : ∀ i ∈ is, store' (key i) = (act i (store (key i))).1) :
    (∀ i ∈ is, (revert key undo error (is ++ error :: post) store').1 (key i) =
        (undo i (act i (store (key i))).1).1) ∧
      (∀ k, k ∉ is.map key → (revert key undo error (is ++ error :: post) store').1 k = store' k) ∧
      ((revert key undo error (is ++ error :: post) store').2 = true ↔
        ∀ i ∈ is, (undo i (act i (store (key i))).1).2 = true) := by
  induction is generalizing store' with
  | nil =>
    rw [List.nil_append, revert, if_pos rfl]
    exact ⟨fun _ hi => absurd hi List.not_mem_nil, fun _ _ => rfl,
      iff_of_true rfl fun _ hi => absurd hi List.not_mem_nil⟩
  | cons i is ih =>
    rw [List.mem_cons, not_or] at herror
    rw [List.map_cons, List.nodup_cons] at hnodup
    rw [List.forall_mem_cons] at hdone
    have hrest : ∀ j ∈ is, Function.update store' (key i) (undo i (store' (key i))).1 (key j) =
        (act j (store (key j))).1 := by
      intro j hj
      have hne : key j ≠ key i := fun heq => hnodup.1 (heq ▸ List.mem_map_of_mem hj)
      rw [Function.update_of_ne hne]
      exact hdone.2 j hj
    obtain ⟨hcells, hother, hok⟩ := ih herror.2 hnodup.2 hrest
    rw [List.cons_append, revert, if_neg (Ne.symm herror.1)]
    refine ⟨?_, ?_, ?_⟩
    · rw [List.forall_mem_cons]
      refine ⟨?_, hcells⟩
      rw [← hdone.1]
      exact (hother (key i) hnodup.1).trans (Function.update_self _ _ _)
    · intro k hk
      rw [List.map_cons, List.mem_cons, not_or] at hk
      exact (hother k hk.2).trans (Function.update_of_ne hk.1 _ _)
    · rw [List.forall_mem_cons, ← hok, ← hdone.1]
      exact Bool.and_eq_true_iff

/-- INTERNAL: a list whose first action that is not taken is known. -/
theorem stopsSafely_of_first {takes : List ι → ι → Prop} {undone : ι → Prop} {left : List ι → ι → Prop} {error : ι}
    (post : List ι) (htaken : ∀ pre i rest, is = pre ++ i :: rest → takes (done ++ pre) i)
    (herror : ¬ takes (done ++ is) error) :
    StopsSafely takes undone left done (is ++ error :: post) ↔
      (∀ j ∈ done ++ is, undone j) ∧ left (done ++ is) error := by
  induction is generalizing done with
  | nil =>
    rw [List.append_nil] at herror ⊢
    exact (or_iff_right fun h => herror h.1).trans (and_iff_right herror)
  | cons i is ih =>
    have hfirst : takes done i := by
      have h := htaken [] i is rfl
      rwa [List.append_nil] at h
    have hsplit : done ++ i :: is = done ++ [i] ++ is := by rw [List.append_assoc, List.singleton_append]
    rw [hsplit] at herror ⊢
    rw [← ih ?_ herror, List.cons_append]
    · exact (or_iff_left fun h => h.1 hfirst).trans (and_iff_right hfirst)
    · intro pre j rest heq
      have h := htaken (i :: pre) j rest (by rw [heq, List.cons_append])
      rwa [← List.singleton_append, ← List.append_assoc] at h

/-- INTERNAL: a list whose actions are all taken. -/
theorem stopsSafely_of_all {takes : List ι → ι → Prop} {undone : ι → Prop} {left : List ι → ι → Prop}
    (htaken : ∀ pre i rest, is = pre ++ i :: rest → takes (done ++ pre) i) : StopsSafely takes undone left done is := by
  induction is generalizing done with
  | nil => trivial
  | cons i is ih =>
    have hfirst : takes done i := by
      have h := htaken [] i is rfl
      rwa [List.append_nil] at h
    refine Or.inl ⟨hfirst, ih ?_⟩
    intro pre j rest heq
    have h := htaken (i :: pre) j rest (by rw [heq, List.cons_append])
    rwa [← List.singleton_append, ← List.append_assoc] at h

/-- An action that has succeeded excludes every other one from its cell. -/
def Excludes (act : ι → α → α × Bool) : Prop :=
  ∀ i j a, i ≠ j → (act i a).2 = true → act j (act i a).1 = ((act i a).1, false)

/-- INTERNAL: the next action meets its cell as it was at first, or finds another action there. -/
theorem DoneOn.next (h : DoneOn key act store store' done) (hexcl : Excludes act) (hi : i ∉ done) :
    (key i ∉ done.map key ∧ store' (key i) = store (key i)) ∨
      (key i ∈ done.map key ∧ act i (store' (key i)) = (store' (key i), false)) := by
  by_cases hkey : key i ∈ done.map key
  · right
    obtain ⟨j, hj, heq⟩ := List.mem_map.mp hkey
    have hne : j ≠ i := fun hji => hi (hji ▸ hj)
    rw [← heq, h.cell j hj]
    exact ⟨heq ▸ hkey, hexcl j i _ hne (h.succeeds j hj)⟩
  · exact Or.inl ⟨hkey, h.other _ hkey⟩

/-- What `attempt` does: the actions up to the one that fails are done, or all of them are. -/
theorem attempt_cases [DecidableEq κ] (h : DoneOn key act store store' done) (hexcl : Excludes act)
    (hnodup : (done ++ is).Nodup) :
    ((attempt key act is store').2 = none ∧ ∀ pre i rest, is = pre ++ i :: rest → Succeeds key act store (done ++ pre) i) ∨
      ∃ mid error post last, is = mid ++ error :: post ∧ DoneOn key act store last (done ++ mid) ∧
        (∀ pre i rest, mid = pre ++ i :: rest → Succeeds key act store (done ++ pre) i) ∧
        ¬ Succeeds key act store (done ++ mid) error ∧
        attempt key act is store' = (Function.update last (key error) (act error (last (key error))).1, some error) := by
  induction is generalizing done store' with
  | nil => exact Or.inl ⟨rfl, fun pre i rest heq => absurd heq.symm (List.append_ne_nil_of_right_ne_nil _ (by simp))⟩
  | cons i is ih =>
    have hi : i ∉ done := fun hmem => (List.nodup_append.mp hnodup).2.2 i hmem i List.mem_cons_self rfl
    have hnext := h.next hexcl hi
    by_cases hok : (act i (store' (key i))).2 = true
    · have hfresh : key i ∉ done.map key ∧ store' (key i) = store (key i) := by
        rcases hnext with hfresh | ⟨-, hfail⟩
        · exact hfresh
        · rw [hfail] at hok
          exact absurd hok Bool.false_ne_true
      have hsucceeds : Succeeds key act store done i := ⟨hfresh.1, hfresh.2 ▸ hok⟩
      have hstep : attempt key act (i :: is) store' =
          attempt key act is (Function.update store' (key i) (act i (store (key i))).1) := by
        rw [attempt, if_pos hok, hfresh.2]
      have hcons : ∀ {l pre : List ι} {j : ι} {rest : List ι},
          (∀ pre j rest, l = pre ++ j :: rest → Succeeds key act store (done ++ [i] ++ pre) j) →
            i :: l = pre ++ j :: rest → Succeeds key act store (done ++ pre) j := by
        intro l pre j rest hl heq
        cases pre with
        | nil =>
          obtain ⟨rfl, rfl⟩ := List.cons.inj heq
          rwa [List.append_nil]
        | cons i' pre =>
          obtain ⟨rfl, hrest⟩ := List.cons.inj heq
          have hj := hl pre j rest hrest
          rwa [List.append_assoc, List.singleton_append] at hj
      have hnodup' : (done ++ [i] ++ is).Nodup := by rwa [List.append_assoc, List.singleton_append]
      rw [hstep]
      rcases ih (h.snoc hsucceeds) hnodup' with ⟨hnone, hall⟩ | ⟨mid, error, post, last, rfl, hlast, hall, herror, heq⟩
      · exact Or.inl ⟨hnone, fun pre j rest => hcons hall⟩
      · rw [List.append_assoc, List.singleton_append] at hlast herror
        exact Or.inr ⟨i :: mid, error, post, last, rfl, hlast, fun pre j rest => hcons hall, herror, heq⟩
    · refine Or.inr ⟨[], i, is, store', rfl, by rwa [List.append_nil], ?_, ?_, ?_⟩
      · exact fun pre j rest heq => absurd heq.symm (List.append_ne_nil_of_right_ne_nil _ (by simp))
      · rw [List.append_nil]
        rintro ⟨hkey, hsucceeds⟩
        rcases hnext with ⟨-, hcell⟩ | ⟨hmem, -⟩
        · exact hok (hcell.symm ▸ hsucceeds)
        · exact hkey hmem
      · rw [attempt, if_neg hok]

/-- INTERNAL: what is left after an attempt that failed has been undone. -/
theorem revert_eq_iff [DecidableEq ι] [DecidableEq κ] {error : ι} (post : List ι) (h : DoneOn key act store store' done)
    (hexcl : Excludes act) (herror : error ∉ done)
    (hrevert : (revert key undo error (done ++ error :: post)
      (Function.update store' (key error) (act error (store' (key error))).1)).2 = true) :
    (∀ i ∈ done, (undo i (act i (store (key i))).1).2 = true) ∧
      ((revert key undo error (done ++ error :: post)
          (Function.update store' (key error) (act error (store' (key error))).1)).1 = store ↔
        (∀ i ∈ done, (undo i (act i (store (key i))).1).1 = store (key i)) ∧
          (key error ∈ done.map key ∨ (act error (store (key error))).1 = store (key error))) := by
  have hnext := h.next hexcl herror
  have hcell : ∀ i ∈ done, Function.update store' (key error) (act error (store' (key error))).1 (key i) =
      (act i (store (key i))).1 := by
    intro i hi
    by_cases hkey : key i = key error
    · rcases hnext with ⟨hfresh, -⟩ | ⟨-, hsame⟩
      · exact absurd (hkey ▸ List.mem_map_of_mem hi) hfresh
      · rw [hkey, Function.update_self, hsame, ← hkey]
        exact h.cell i hi
    · rw [Function.update_of_ne hkey]
      exact h.cell i hi
  obtain ⟨hcells, hother, hok⟩ := revert_of_done undo post herror h.nodup hcell
  refine ⟨hok.mp hrevert, ?_⟩
  constructor
  · intro heq
    rw [heq] at hcells hother
    refine ⟨fun i hi => (hcells i hi).symm, ?_⟩
    rcases hnext with ⟨hfresh, hsame⟩ | ⟨hmem, -⟩
    · have hleft := hother (key error) hfresh
      rw [Function.update_self, hsame] at hleft
      exact Or.inr hleft.symm
    · exact Or.inl hmem
  · rintro ⟨hundone, hleft⟩
    funext k
    by_cases hk : k ∈ done.map key
    · obtain ⟨i, hi, rfl⟩ := List.mem_map.mp hk
      rw [hcells i hi, hundone i hi]
    · rw [hother k hk]
      by_cases hkey : k = key error
      · subst hkey
        rcases hnext with ⟨-, hsame⟩ | ⟨hmem, -⟩
        · rw [Function.update_self, hsame]
          exact hleft.resolve_left hk
        · exact absurd hmem hk
      · rw [Function.update_of_ne hkey]
        exact h.other k hk

/-- Undoing restores the store after every attempt that fails, where the undoing succeeds, if and only if the actions that
were done are undone and the one that failed has left its cell as it was. -/
theorem revert_attempt_iff [DecidableEq ι] [DecidableEq κ] {takes : List ι → ι → Prop} {undone : ι → Prop}
    {left : List ι → ι → Prop} (hexcl : Excludes act) (hnodup : is.Nodup) (htakes : ∀ done i, takes done i ↔ Succeeds key act store done i)
    (hundone : ∀ i, (act i (store (key i))).2 = true → (undo i (act i (store (key i))).1).2 = true →
      ((undo i (act i (store (key i))).1).1 = store (key i) ↔ undone i))
    (hleft : ∀ done i, ¬ Succeeds key act store done i →
      (key i ∈ done.map key ∨ (act i (store (key i))).1 = store (key i) ↔ left done i))
    (hrevert : ∀ error, (attempt key act is store).2 = some error →
      (revert key undo error is (attempt key act is store).1).2 = true) :
    (∀ error, (attempt key act is store).2 = some error →
        (revert key undo error is (attempt key act is store).1).1 = store) ↔
      StopsSafely takes undone left [] is := by
  have hstart : DoneOn key act store store [] := DoneOn.nil
  rcases attempt_cases hstart hexcl hnodup with
    ⟨hnone, hall⟩ | ⟨mid, error, post, last, rfl, hlast, hall, herror, heq⟩
  · refine iff_of_true ?_ (stopsSafely_of_all fun pre i rest heq => (htakes _ i).mpr (hall pre i rest heq))
    intro error herror
    rw [hnone] at herror
    exact absurd herror (Option.some_ne_none error).symm
  · rw [stopsSafely_of_first post (fun pre i rest heq => (htakes _ i).mpr (hall pre i rest heq))
      (mt (htakes _ _).mp herror)]
    rw [heq] at hrevert ⊢
    rw [List.nil_append] at hlast herror ⊢
    have hnotmem : error ∉ mid := fun hmem => (List.nodup_append.mp hnodup).2.2 error hmem error List.mem_cons_self rfl
    obtain ⟨hok, hiff⟩ := revert_eq_iff post hlast hexcl hnotmem (hrevert error rfl)
    have hcells : (∀ i ∈ mid, (undo i (act i (store (key i))).1).1 = store (key i)) ↔ ∀ i ∈ mid, undone i :=
      forall₂_congr fun i hi => hundone i (hlast.succeeds i hi) (hok i hi)
    rw [← hcells, ← hleft mid error herror, ← hiff]
    exact ⟨fun h => h error rfl, fun h error' heq' => Option.some.inj heq' ▸ h⟩

end FStack.Prelude
