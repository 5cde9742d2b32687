import FStack.Model.ForkHandshake
import FStack.Prelude.Monitored
import Mathlib.Logic.Function.Iterate

/-!
# The wake-up of the parent

The parent sets `forking` after the process has split, so a child that is faster clears it too early, and the
parent waits for ever.  So it does when the child leaves without clearing `forking`.  A run is right exactly when
the child does neither (`fork_right_iff`).
-/

set_option autoImplicit false

namespace FStack.Analysis

open FStack.Model FStack.Prelude

variable {s : ForkState}

/-- The child does nothing more with the context of the parent. -/
def ChildFinished (s : ForkState) : Prop := s.child = .done ∨ s.child = .returned ∨ s.child = .crashed

/-- The parent leaves its loop and releases the lock, without the child. -/
def ParentLeaves (s : ForkState) : Prop := ∃ n, (ForkState.parentStep^[n] s).lock = false

/-- There is no lost wake-up in the state. -/
def WakeupKept (s : ForkState) : Prop :=
  ChildFinished s → s.forking = false ∧ ParentLeaves s

/-- No wake-up is lost by a step. -/
def ForkRight (s : ForkState) (a : ForkStep) : Prop := WakeupKept (s.step a)

/-- The child has a context and memory for its request, and does not clear `forking` before the parent has set
it. -/
def ForkSafe (s : ForkState) : ForkStep → Prop
  | .parent => True
  | .child _ memory _ _ =>
    match s.child with
    | .initialised attached => memory = true ∧ attached = true
    | .replied => s.parent ≠ .forked ∧ s.parent ≠ .counted
    | _ => True

/-- The parent is on its way to its loop, or in it, and nobody else clears `forking`. -/
def Stuck (s : ForkState) : Prop :=
  s.lock = true ∧ (s.parent = .forked ∨ s.parent = .counted ∨ s.parent = .waiting ∧ s.forking = true)

/-! ## The parent alone -/

/-- INTERNAL: A parent that is stuck stays so. -/
theorem Stuck.parentStep (h : Stuck s) : Stuck s.parentStep := by
  obtain ⟨hlock, hforked | hcounted | ⟨hwaiting, hforking⟩⟩ := h
  · rw [ForkState.parentStep, hforked]
    exact ⟨hlock, .inr (.inl rfl)⟩
  · rw [ForkState.parentStep, hcounted]
    exact ⟨hlock, .inr (.inr ⟨rfl, rfl⟩)⟩
  · rw [ForkState.parentStep, hwaiting]
    dsimp only
    rw [if_pos hforking]
    exact ⟨hlock, .inr (.inr ⟨hwaiting, hforking⟩)⟩

theorem Stuck.iterate (h : Stuck s) (n : ℕ) : Stuck (ForkState.parentStep^[n] s) := by
  induction n with
  | zero => exact h
  | succ n ih =>
    rw [Function.iterate_succ_apply']
    exact ih.parentStep

theorem Stuck.not_leaves (h : Stuck s) : ¬ParentLeaves s := by
  rintro ⟨n, hn⟩
  rw [(h.iterate n).1] at hn
  cases hn

/-- INTERNAL: A parent that finds `forking` cleared leaves its loop and releases the lock. -/
theorem parentLeaves_of_cleared (hforking : s.forking = false) (hforked : s.parent ≠ .forked)
    (hcounted : s.parent ≠ .counted) (hlock : s.parent = .unlocked → s.lock = false) : ParentLeaves s := by
  cases hparent : s.parent with
  | forked => exact absurd hparent hforked
  | counted => exact absurd hparent hcounted
  | waiting =>
    refine ⟨2, ?_⟩
    have hleft : s.parentStep = { s with parent := .left } := by
      rw [ForkState.parentStep, hparent]
      dsimp only
      rw [hforking]
      rfl
    rw [Function.iterate_succ_apply, hleft]
    rfl
  | left =>
    refine ⟨1, ?_⟩
    rw [Function.iterate_one, ForkState.parentStep, hparent]
  | unlocked => exact ⟨0, hlock hparent⟩

/-! ## One step -/

/-- What holds in a run that is safe: the child has not finished and the parent cannot leave yet, or the child has
cleared `forking` after the parent has set it. -/
def ForkInv (s : ForkState) : Prop :=
  ¬ChildFinished s ∧ Stuck s ∨
    s.child = .done ∧ s.forking = false ∧ s.parent ≠ .forked ∧ s.parent ≠ .counted ∧
      (s.parent = .unlocked → s.lock = false)

/-- INTERNAL: In a state of the invariant no wake-up is lost. -/
theorem ForkInv.kept (h : ForkInv s) : WakeupKept s := by
  intro hfinished
  rcases h with ⟨hnot, -⟩ | ⟨-, hforking, hforked, hcounted, hlock⟩
  · exact absurd hfinished hnot
  · exact ⟨hforking, parentLeaves_of_cleared hforking hforked hcounted hlock⟩

/-- INTERNAL: A step of the parent keeps the invariant. -/
theorem ForkInv.parent (h : ForkInv s) : ForkInv s.parentStep := by
  rcases h with ⟨hnot, hstuck⟩ | ⟨hdone, hforking, hforked, hcounted, hlock⟩
  · have hchild : s.parentStep.child = s.child := by
      rw [ForkState.parentStep]
      split
      · rfl
      · rfl
      · split <;> rfl
      · rfl
      · rfl
    refine .inl ⟨?_, hstuck.parentStep⟩
    rw [ChildFinished, hchild]
    exact hnot
  · refine .inr ?_
    rw [ForkState.parentStep]
    cases hparent : s.parent with
    | forked => exact absurd hparent hforked
    | counted => exact absurd hparent hcounted
    | waiting =>
      dsimp only
      rw [if_neg (by rw [hforking]; decide)]
      refine ⟨hdone, hforking, ?_, ?_, ?_⟩
      · exact ForkParent.noConfusion
      · exact ForkParent.noConfusion
      · exact ForkParent.noConfusion
    | left =>
      refine ⟨hdone, hforking, ?_, ?_, fun _ => rfl⟩
      · exact ForkParent.noConfusion
      · exact ForkParent.noConfusion
    | unlocked =>
      dsimp only
      exact ⟨hdone, hforking, hforked, hcounted, hlock⟩

/-- INTERNAL: A child that goes on without touching `forking`. -/
theorem forkInv_of_child (h : Stuck s) {child : ForkChild} {handle : Option ℕ}
    (hgoes : child ≠ .done ∧ child ≠ .returned ∧ child ≠ .crashed) :
    ForkInv { s with child := child, handle := handle } := by
  refine .inl ⟨?_, h⟩
  rintro (heq | heq | heq)
  · exact hgoes.1 heq
  · exact hgoes.2.1 heq
  · exact hgoes.2.2 heq

/-- INTERNAL: A child that leaves does so for ever, and with it the parent is stuck. -/
theorem not_kept_of_stuck (hfinished : ChildFinished s) (h : Stuck s) : ¬WakeupKept s :=
  fun hkept => h.not_leaves (hkept hfinished).2

/-- **A step from a state of the invariant** keeps it if it is safe, and loses the wake-up if it is
not. -/
theorem fork_step (h : ForkInv s) (a : ForkStep) :
    (ForkSafe s a → ForkInv (s.step a)) ∧ (¬ForkSafe s a → ¬ForkRight s a) := by
  cases a with
  | parent => exact ⟨fun _ => h.parent, fun hunsafe => absurd trivial hunsafe⟩
  | child context memory ret handle =>
    rw [ForkRight, ForkState.step, ForkState.childStep, ForkSafe]
    rcases h with ⟨hnot, hstuck⟩ | hdone
    · cases hchild : s.child with
      | forked =>
        exact ⟨fun _ => forkInv_of_child hstuck (by simp), fun hunsafe => absurd trivial hunsafe⟩
      | initialised attached =>
        dsimp only
        cases memory with
        | false =>
          refine ⟨fun hsafe => absurd hsafe.1 (by decide), fun _ => ?_⟩
          exact not_kept_of_stuck (.inr (.inl rfl)) hstuck
        | true =>
          cases attached with
          | false =>
            refine ⟨fun hsafe => absurd hsafe.2 (by decide), fun _ => ?_⟩
            exact not_kept_of_stuck (.inr (.inr rfl)) hstuck
          | true =>
            exact ⟨fun _ => forkInv_of_child hstuck (by simp), fun hunsafe => absurd ⟨rfl, rfl⟩ hunsafe⟩
      | requested =>
        exact ⟨fun _ => forkInv_of_child hstuck (by simp), fun hunsafe => absurd trivial hunsafe⟩
      | replied =>
        obtain ⟨hlock, hforked | hcounted | ⟨hwaiting, -⟩⟩ := hstuck
        · refine ⟨fun hsafe => absurd hforked hsafe.1, fun _ => ?_⟩
          exact not_kept_of_stuck (.inl rfl) ⟨hlock, .inl hforked⟩
        · refine ⟨fun hsafe => absurd hcounted hsafe.2, fun _ => ?_⟩
          exact not_kept_of_stuck (.inl rfl) ⟨hlock, .inr (.inl hcounted)⟩
        · refine ⟨fun hsafe => .inr ⟨rfl, rfl, hsafe.1, hsafe.2, fun hunlocked => ?_⟩, fun hunsafe => ?_⟩
          · rw [show s.parent = .unlocked from hunlocked] at hwaiting
            cases hwaiting
          · rw [hwaiting] at hunsafe
            exact absurd ⟨by decide, by decide⟩ hunsafe
      | done => exact absurd (.inl hchild) hnot
      | returned => exact absurd (.inr (.inl hchild)) hnot
      | crashed => exact absurd (.inr (.inr hchild)) hnot
    · rw [hdone.1]
      exact ⟨fun _ => .inr hdone, fun hunsafe => absurd trivial hunsafe⟩

/-! ## Runs -/

/-- **A run loses no wake-up exactly when** the child clears `forking` after the parent has set it, and does clear
it. -/
theorem fork_right_iff (refcount : ℤ) (steps : List ForkStep) :
    AllSteps ForkState.step ForkRight (ForkState.init refcount) steps ↔
      AllSteps ForkState.step ForkSafe (ForkState.init refcount) steps := by
  refine @allSteps_iff _ _ ForkState.step _ _ ForkInv (fun _ => True)
    (fun s a h _ hsafe => (fork_step h a).1 hsafe) (fun s a h _ => ⟨fun hright => ?_, fun hsafe => ?_⟩) _ ?_ _
    fun _ _ => trivial
  · by_contra hunsafe
    exact (fork_step h a).2 hunsafe hright
  · exact ((fork_step h a).1 hsafe).kept
  · refine .inl ⟨?_, rfl, .inl rfl⟩
    rintro (h | h | h) <;> cases h

/-- The child does its part before the parent has set `forking`. -/
theorem not_fork_right :
    ¬AllSteps ForkState.step ForkRight (ForkState.init 1)
      [.child true true 0 7, .child true true 0 7, .child true true 0 7, .child true true 0 7, .parent,
        .parent] := by
  rintro ⟨-, -, -, -, -, hright, -⟩
  have hforking := (hright (.inl rfl)).1
  exact absurd hforking (by decide)

end FStack.Analysis
