import Mathlib.Data.List.Basic

/-!
# Computations that keep a log

A computation `Logged ε α` returns a value and the list of the events it caused, in
order.  Two programs with the same values and different logs are different: the log
is where a property that the value does not show (which cells were read, which table
entries were touched) is stated.

`Every P` says that all events of a computation satisfy `P`; `every_bind` takes such a
statement apart along the program text.
-/

set_option autoImplicit false

namespace FStack.Prelude

/-- A value and the events on the way to it. -/
structure Logged (ε α : Type) where
  val : α
  log : List ε
deriving DecidableEq, Repr

namespace Logged

variable {ε α β : Type}

instance : Monad (Logged ε) where
  pure a := ⟨a, []⟩
  bind c f := ⟨(f c.val).val, c.log ++ (f c.val).log⟩

/-- One event. -/
def emit (e : ε) : Logged ε Unit := ⟨(), [e]⟩

/-- Several events. -/
def emits (es : List ε) : Logged ε Unit := ⟨(), es⟩

@[simp] theorem val_pure (a : α) : (pure a : Logged ε α).val = a := rfl

@[simp] theorem val_bind (c : Logged ε α) (f : α → Logged ε β) :
    (c >>= f).val = (f c.val).val := rfl

@[simp] theorem log_pure (a : α) : (pure a : Logged ε α).log = [] := rfl

@[simp] theorem log_bind (c : Logged ε α) (f : α → Logged ε β) :
    (c >>= f).log = c.log ++ (f c.val).log := rfl

@[simp] theorem val_emit (e : ε) : (emit e).val = () := rfl

@[simp] theorem log_emit (e : ε) : (emit e).log = [e] := rfl

@[simp] theorem val_emits (es : List ε) : (emits es).val = () := rfl

/-- All events of the computation satisfy `P`. -/
def Every (P : ε → Prop) (c : Logged ε α) : Prop := ∀ e ∈ c.log, P e

variable {P : ε → Prop}

@[simp] theorem every_pure (a : α) : Every P (pure a : Logged ε α) := by
  simp [Every]

@[simp] theorem every_emit (e : ε) : Every P (emit e) ↔ P e := by
  simp [Every]

@[simp] theorem every_emits (es : List ε) : Every P (emits es) ↔ ∀ e ∈ es, P e := Iff.rfl

@[simp] theorem every_bind (c : Logged ε α) (f : α → Logged ε β) :
    Every P (c >>= f) ↔ Every P c ∧ Every P (f c.val) := by
  simp only [Every, log_bind, List.mem_append]
  constructor
  · intro h
    exact ⟨fun e he => h e (.inl he), fun e he => h e (.inr he)⟩
  · rintro ⟨hc, hf⟩ e (he | he)
    · exact hc e he
    · exact hf e he

end Logged

end FStack.Prelude
