import Mathlib.Data.List.Nodup

/-!
# Chains of linked nodes

Nodes that hold the link to the next node are a list as long as the links lead from a start over each of them, once, to
the end.  `Seg` says so.  `searchChain` goes along the links, and ends on a chain.  `Seg.unlink` says what is left when a
node is taken out.
-/

set_option autoImplicit false

namespace FStack.Prelude

variable {α : Type} {next next' : α → Option α} {p q : Option α}

/-- The links lead from `p` over these nodes to `q`. -/
def Seg (next : α → Option α) : Option α → List α → Option α → Prop
  | p, [], q => p = q
  | p, e :: es, q => p = some e ∧ Seg next (next e) es q

theorem seg_append {as bs : List α} : Seg next p (as ++ bs) q ↔ ∃ m, Seg next p as m ∧ Seg next m bs q := by
  induction as generalizing p with
  | nil =>
    constructor
    · intro h
      exact ⟨p, rfl, h⟩
    · rintro ⟨m, rfl, h⟩
      exact h
  | cons e as ih =>
    rw [List.cons_append, Seg, ih]
    constructor
    · rintro ⟨hp, m, has, hbs⟩
      exact ⟨m, ⟨hp, has⟩, hbs⟩
    · rintro ⟨m, ⟨hp, has⟩, hbs⟩
      exact ⟨hp, m, has, hbs⟩

/-- Only the links of the nodes matter. -/
theorem Seg.congr {es : List α} (h : Seg next p es q) (heq : ∀ e ∈ es, next' e = next e) : Seg next' p es q := by
  induction es generalizing p with
  | nil => exact h
  | cons e es ih =>
    rw [List.forall_mem_cons] at heq
    refine ⟨h.1, ?_⟩
    rw [heq.1]
    exact ih h.2 heq.2

/-- From a start, there is one chain to the end at most. -/
theorem Seg.unique {es fs : List α} (h : Seg next p es none) (h' : Seg next p fs none) : es = fs := by
  induction es generalizing p fs with
  | nil =>
    cases fs with
    | nil => rfl
    | cons f fs => exact absurd ((show p = none from h).symm.trans h'.1) (Option.some_ne_none f).symm
  | cons e es ih =>
    cases fs with
    | nil => exact absurd ((show p = none from h').symm.trans h.1) (Option.some_ne_none e).symm
    | cons f fs =>
      obtain rfl := Option.some.inj (h.1.symm.trans h'.1)
      rw [ih h.2 h'.2]

/-- Takes the node `e` out from behind the nodes `pre`: the last of these gets its link, or the start does. -/
theorem Seg.unlink {pre post : List α} {e : α} (h : Seg next p (pre ++ e :: post) none)
    (hlast : ∀ x, pre.getLast? = some x → next' x = next e)
    (hrest : ∀ x ∈ pre ++ post, pre.getLast? ≠ some x → next' x = next x) (hnodup : (pre ++ e :: post).Nodup) :
    Seg next' (if pre = [] then next e else p) (pre ++ post) none := by
  obtain ⟨m, hpre, rfl, hpost⟩ := seg_append.mp h
  have hdisjoint : ∀ x ∈ pre, x ∉ post := fun x hx hin =>
    (List.nodup_append.mp hnodup).2.2 x hx x (List.mem_cons_of_mem e hin) rfl
  have hpost' : Seg next' (next e) post none := by
    refine hpost.congr fun x hx => hrest x (List.mem_append_right pre hx) fun hget => ?_
    exact hdisjoint x (List.mem_of_getLast? hget) hx
  rcases List.eq_nil_or_concat' pre with rfl | ⟨front, last, rfl⟩
  · rw [if_pos rfl]
    exact hpost'
  · rw [if_neg (by simp)]
    obtain ⟨m, hfront, rfl, -⟩ := seg_append.mp hpre
    refine seg_append.mpr ⟨next e, seg_append.mpr ⟨some last, ?_, rfl, hlast last (by simp)⟩, hpost'⟩
    refine hfront.congr fun x hx => hrest x (by simp [hx]) fun hget => ?_
    have heq : last = x := by simpa using hget
    subst heq
    have hfresh := (List.nodup_append.mp (List.nodup_append.mp hnodup).1).2.2 last hx last (List.mem_singleton_self last)
    exact hfresh rfl

/-- Goes along the links, for at most so many nodes: the first node with a property, and the node before it. -/
def searchChain (next : α → Option α) (found : α → Bool) : ℕ → Option α → Option α → Option (Option (Option α × α))
  | 0, _, _ => none
  | _ + 1, _, none => some none
  | fuel + 1, prev, some e => if found e then some (some (prev, e)) else searchChain next found fuel (some e) (next e)

/-- On a chain, the search ends with the first node that has the property, or finds that there is none. -/
theorem searchChain_of_seg (found : α → Bool) {es : List α} (h : Seg next p es none) {fuel : ℕ} (hfuel : es.length < fuel)
    (prev : Option α) :
    (∃ pre e post, es = pre ++ e :: post ∧ found e = true ∧
        searchChain next found fuel prev p = some (some (pre.getLast?.or prev, e))) ∨
      (∀ e ∈ es, found e = false) ∧ searchChain next found fuel prev p = some none := by
  induction es generalizing p fuel prev with
  | nil =>
    obtain rfl : p = none := h
    cases fuel with
    | zero => exact absurd hfuel (Nat.not_lt_zero _)
    | succ fuel => exact .inr ⟨fun e he => absurd he List.not_mem_nil, rfl⟩
  | cons e es ih =>
    obtain ⟨rfl, hrest⟩ := h
    cases fuel with
    | zero => exact absurd hfuel (Nat.not_lt_zero _)
    | succ fuel =>
      rw [searchChain]
      by_cases hfound : found e = true
      · rw [if_pos hfound]
        exact .inl ⟨[], e, es, rfl, hfound, rfl⟩
      · rw [if_neg hfound]
        rcases ih hrest (Nat.lt_of_succ_lt_succ hfuel) (some e) with ⟨pre, x, post, rfl, hx, hsearch⟩ | ⟨hnone, hsearch⟩
        · refine .inl ⟨e :: pre, x, post, rfl, hx, ?_⟩
          rw [hsearch]
          cases pre with
          | nil => rfl
          | cons f pre => rw [List.getLast?_cons_cons, List.getLast?_cons, Option.some_or, Option.some_or]
        · exact .inr ⟨List.forall_mem_cons.mpr ⟨Bool.eq_false_iff.mpr hfound, hnone⟩, hsearch⟩

end FStack.Prelude
