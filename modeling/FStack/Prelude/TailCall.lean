import Mathlib.Logic.Relation
import Mathlib.Data.Nat.Notation

/-!
# Functions that end in one tail call

A C function whose every path either returns a value or ends by calling itself
is given by what one activation does.  `eval` runs such a function with a bound
on the depth of calls, and `eval` answers `none` exactly when the bound was too
small.  `Shrinking` says that a size of the arguments drops at every call that an
entry can reach, which is the usual termination argument, and
`eval_isSome_of_shrinking` turns it into an answer.
-/

set_option autoImplicit false

namespace FStack.Prelude

/-- What one activation does: return a value, or make its one tail call. -/
inductive Outcome (σ ρ : Type) where
  | ret (r : ρ)
  | call (c : σ)
deriving DecidableEq, Repr

namespace TailCall

variable {σ ρ : Type}

/-- The answer of the function entered with `c`, with at most `n` nested
activations. -/
def eval (step : σ → Outcome σ ρ) : ℕ → σ → Option ρ
  | 0, _ => none
  | n + 1, c =>
    match step c with
    | .ret r => some r
    | .call c' => eval step n c'

/-- The activation with arguments `c` makes the call with arguments `c'`. -/
def Calls (step : σ → Outcome σ ρ) (c c' : σ) : Prop := step c = .call c'

/-- The call with arguments `c'` happens when the function is entered with `c`. -/
def Reaches (step : σ → Outcome σ ρ) : σ → σ → Prop :=
  Relation.ReflTransGen (Calls step)

/-- Every call that happens below `c` is made on smaller arguments. -/
def Shrinking (step : σ → Outcome σ ρ) (size : σ → ℕ) (c : σ) : Prop :=
  ∀ c₁ c₂, Reaches step c c₁ → Calls step c₁ c₂ → size c₂ < size c₁

variable {step : σ → Outcome σ ρ} {size : σ → ℕ} {c c' : σ}

/-- INTERNAL: shrinking passes to the calls made. -/
theorem Shrinking.of_calls (h : Shrinking step size c) (hc : Calls step c c') :
    Shrinking step size c' := by
  intro c₁ c₂ hr h12
  exact h c₁ c₂ (Relation.ReflTransGen.head hc hr) h12

/-- One activation for each unit of size, and one to return, is enough. -/
theorem eval_isSome_of_shrinking (h : Shrinking step size c) {n : ℕ} (hn : size c < n) :
    ∃ r, eval step n c = some r := by
  induction n generalizing c with
  | zero => omega
  | succ n ih =>
    cases hs : step c with
    | ret r => exact ⟨r, by simp [eval, hs]⟩
    | call c' =>
      have hlt : size c' < size c := h c c' Relation.ReflTransGen.refl hs
      obtain ⟨r, hr⟩ := ih (h.of_calls hs) (by omega)
      exact ⟨r, by simp [eval, hs, hr]⟩

/-- A call that repeats its own arguments never returns. -/
theorem eval_eq_none_of_self_call (h : Calls step c c) (n : ℕ) : eval step n c = none := by
  induction n with
  | zero => rfl
  | succ n ih =>
    have hs : step c = .call c := h
    simp [eval, hs, ih]

/-- INTERNAL: an answer is not changed by a larger bound. -/
theorem eval_mono {n m : ℕ} {r : ρ} (h : eval step n c = some r) (hnm : n ≤ m) :
    eval step m c = some r := by
  induction n generalizing c m with
  | zero => simp [eval] at h
  | succ n ih =>
    obtain ⟨m, rfl⟩ : ∃ k, m = k + 1 := ⟨m - 1, by omega⟩
    cases hs : step c with
    | ret r' => simpa [eval, hs] using h
    | call c' =>
      simp only [eval, hs] at h ⊢
      exact ih h (by omega)

end TailCall

end FStack.Prelude
