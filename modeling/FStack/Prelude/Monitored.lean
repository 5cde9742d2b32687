import Mathlib.Data.List.Basic

/-!
# Runs whose steps are watched

A machine is a function that takes a state and an input to the next state.  `AllSteps` says that a
statement about a state and the input it meets holds at every step of a run; such a statement can be
what the machine has to do, or a condition under which it does it.

`allSteps_iff` and `AllSteps.imp` compare two such statements: it is enough to compare them at one step,
from a state that satisfies an invariant.  `allSteps_settles_iff` is about machines whose runs come to an end.
-/

set_option autoImplicit false

namespace FStack.Prelude

variable {σ α : Type}

/-- `P` holds at every step of the run from `s` on. -/
def AllSteps (step : σ → α → σ) (P : σ → α → Prop) : σ → List α → Prop
  | _, [] => True
  | s, a :: as => P s a ∧ AllSteps step P (step s a) as

variable {step : σ → α → σ} {P Q : σ → α → Prop}

@[simp] theorem allSteps_nil (s : σ) : AllSteps step P s [] := trivial

@[simp] theorem allSteps_cons (s : σ) (a : α) (as : List α) :
    AllSteps step P s (a :: as) ↔ P s a ∧ AllSteps step P (step s a) as := Iff.rfl

theorem allSteps_append (s : σ) (as bs : List α) :
    AllSteps step P s (as ++ bs) ↔ AllSteps step P s as ∧ AllSteps step P (as.foldl step s) bs := by
  induction as generalizing s with
  | nil => simp
  | cons a as ih => rw [List.cons_append, allSteps_cons, allSteps_cons, ih, List.foldl_cons, and_assoc]

instance AllSteps.decidable [∀ s a, Decidable (P s a)] :
    ∀ (s : σ) (as : List α), Decidable (AllSteps step P s as)
  | _, [] => inferInstanceAs (Decidable True)
  | s, a :: as =>
    have := AllSteps.decidable (step s a) as
    inferInstanceAs (Decidable (P s a ∧ AllSteps step P (step s a) as))

/-- Two statements that agree at every step that an invariant allows agree on runs, if the second
keeps the invariant. -/
theorem allSteps_iff {I : σ → Prop} {D : α → Prop}
    (hkeep : ∀ s a, I s → D a → Q s a → I (step s a))
    (hiff : ∀ s a, I s → D a → (P s a ↔ Q s a)) {s : σ} (hs : I s) {as : List α}
    (hD : ∀ a ∈ as, D a) : AllSteps step P s as ↔ AllSteps step Q s as := by
  induction as generalizing s with
  | nil => simp
  | cons a as ih =>
    rw [List.forall_mem_cons] at hD
    rw [allSteps_cons, allSteps_cons, hiff s a hs hD.1]
    exact and_congr_right fun hq => ih (hkeep s a hs hD.1 hq) hD.2

/-- The same, where a run meets only the inputs that its states allow. -/
theorem allSteps_issued_iff {I : σ → Prop} {D : σ → α → Prop} (hkeep : ∀ s a, I s → D s a → Q s a → I (step s a))
    (hiff : ∀ s a, I s → D s a → (P s a ↔ Q s a)) {s : σ} (hs : I s) {as : List α} (hD : AllSteps step D s as) :
    AllSteps step P s as ↔ AllSteps step Q s as := by
  induction as generalizing s with
  | nil => simp
  | cons a as ih =>
    rw [allSteps_cons, allSteps_cons, hiff s a hs hD.1]
    exact and_congr_right fun hq => ih (hkeep s a hs hD.1 hq) hD.2

/-- A condition that keeps an invariant, and with it gives a statement at every step, gives it on
runs. -/
theorem AllSteps.imp {I : σ → Prop} (hkeep : ∀ s a, I s → Q s a → I (step s a))
    (himp : ∀ s a, I s → Q s a → P s a) {s : σ} (hs : I s) {as : List α}
    (h : AllSteps step Q s as) : AllSteps step P s as := by
  induction as generalizing s with
  | nil => trivial
  | cons a as ih => exact ⟨himp s a hs h.1, ih (hkeep s a hs h.1) h.2⟩

/-- An invariant that every step under a condition keeps holds at the end of a run of such steps. -/
theorem AllSteps.foldl {I : σ → Prop} (hkeep : ∀ s a, I s → Q s a → I (step s a)) {s : σ} (hs : I s) {as : List α}
    (h : AllSteps step Q s as) : I (as.foldl step s) := by
  induction as generalizing s with
  | nil => exact hs
  | cons a as ih => exact ih (hkeep s a hs h.1) h.2

/-- An invariant that every step keeps, and that gives a statement at every step, gives it on runs. -/
theorem AllSteps.of_invariant {I : σ → Prop} (hkeep : ∀ s a, I s → I (step s a)) (hright : ∀ s a, I s → P s a)
    {s : σ} (hs : I s) (as : List α) : AllSteps step P s as := by
  induction as generalizing s with
  | nil => trivial
  | cons a as ih => exact ⟨hright s a hs, ih (hkeep s a hs)⟩

/-- Runs that stop.  A machine that has stopped stays as it is, and a machine that has not is right.  Then a run is right
at its end if and only if every step that it takes keeps it right. -/
theorem foldl_right_iff {I E R : σ → Prop} (hstop : ∀ s a, E s → step s a = s ∧ Q s a) (hgoing : ∀ s, ¬ E s → R s)
    (hkeep : ∀ s a, I s → ¬ E s → I (step s a)) (hiff : ∀ s a, I s → ¬ E s → (R (step s a) ↔ Q s a)) {s : σ} (hs : I s)
    (hright : R s) (as : List α) : R (as.foldl step s) ↔ AllSteps step Q s as := by
  have hstopped : ∀ {s : σ} (as : List α), E s → as.foldl step s = s := by
    intro s as hs
    induction as with
    | nil => rfl
    | cons a as ih => rwa [List.foldl_cons, (hstop s a hs).1]
  induction as generalizing s with
  | nil => exact iff_of_true hright trivial
  | cons a as ih =>
    rw [List.foldl_cons, allSteps_cons]
    by_cases hend : E s
    · obtain ⟨hstep, hq⟩ := hstop s a hend
      rw [hstep, and_iff_right hq]
      exact ih hs hright
    · by_cases hq : Q s a
      · rw [and_iff_right hq]
        exact ih (hkeep s a hs hend) ((hiff s a hs hend).mpr hq)
      · have hwrong : ¬ R (step s a) := fun h => hq ((hiff s a hs hend).mp h)
        have hlast : E (step s a) := not_not.mp fun h => hwrong (hgoing _ h)
        rw [hstopped as hlast]
        exact iff_of_false hwrong fun h => hq h.1

/-- Runs that come to an end.  A machine goes on in the states of an invariant, where every step that meets a condition
brings it nearer to its end; a step that does not takes it to a state from which no run is good.  Then a run that is
long enough is good if and only if all its steps meet the condition. -/
theorem allSteps_settles_iff {I G B : σ → Prop} {D : α → Prop} {μ : σ → ℕ} (hwatch : ∀ s a, I s → P s a)
    (hgo : ∀ s a, I s → D a → Q s a → G (step s a) ∨ I (step s a) ∧ μ (step s a) < μ s)
    (hoff : ∀ s a, I s → D a → ¬ Q s a → B (step s a)) (hpos : ∀ s, I s → 0 < μ s)
    (hend : ∀ s a, G s → G (step s a) ∧ P s a ∧ Q s a)
    (hbad : ∀ s as, (∀ a ∈ as, D a) → B s → ¬ (G (as.foldl step s) ∧ AllSteps step P s as))
    {s : σ} (hs : I s) {as : List α} (hD : ∀ a ∈ as, D a) (hlen : μ s ≤ as.length) :
    G (as.foldl step s) ∧ AllSteps step P s as ↔ AllSteps step Q s as := by
  have hended : ∀ {s : σ} (as : List α), G s →
      G (as.foldl step s) ∧ AllSteps step P s as ∧ AllSteps step Q s as := by
    intro s as hgood
    induction as generalizing s with
    | nil => exact ⟨hgood, trivial, trivial⟩
    | cons a as ih =>
      obtain ⟨hnext, hp, hq⟩ := hend s a hgood
      obtain ⟨hfinal, hps, hqs⟩ := ih hnext
      exact ⟨hfinal, ⟨hp, hps⟩, hq, hqs⟩
  induction as generalizing s with
  | nil => exact absurd (hpos s hs) (Nat.not_lt.mpr hlen)
  | cons a as ih =>
    rw [List.forall_mem_cons] at hD
    rw [List.length_cons] at hlen
    rw [allSteps_cons, allSteps_cons, List.foldl_cons, and_iff_right (hwatch s a hs)]
    by_cases hq : Q s a
    · rw [and_iff_right hq]
      rcases hgo s a hs hD.1 hq with hgood | ⟨hnext, hless⟩
      · obtain ⟨hfinal, hps, hqs⟩ := hended as hgood
        exact iff_of_true ⟨hfinal, hps⟩ hqs
      · exact ih hnext hD.2 (Nat.le_of_lt_succ (Nat.lt_of_lt_of_le hless hlen))
    · exact iff_of_false (hbad _ as hD.2 (hoff s a hs hD.1 hq)) fun h => hq h.1

end FStack.Prelude

/-!
## Machines that hold a queue

A machine has a queue if every step puts some elements behind its content and takes some from its
front.  Along a run, all that is put in is then what has been taken out followed by what is left.
-/

namespace FStack.Prelude

variable {σ α β : Type} {step : σ → α → σ}

/-- What `f` gives at the steps of a run, one after the other. -/
def gathered (step : σ → α → σ) (f : σ → α → List β) : σ → List α → List β
  | _, [] => []
  | s, a :: as => f s a ++ gathered step f (step s a) as

/-- **The order of a queue.**  If every step puts behind and takes from the front, the elements
come out of a run in the order in which they went in. -/
theorem gathered_fifo {content : σ → List β} {put taken : σ → α → List β} {s : σ} {as : List α}
    (h : AllSteps step (fun s a => content s ++ put s a = taken s a ++ content (step s a)) s as) :
    content s ++ gathered step put s as = gathered step taken s as ++ content (as.foldl step s) := by
  induction as generalizing s with
  | nil => exact List.append_nil _
  | cons a as ih =>
    rw [gathered, gathered, ← List.append_assoc, h.1, List.append_assoc, ih h.2, List.append_assoc]
    rfl

end FStack.Prelude
