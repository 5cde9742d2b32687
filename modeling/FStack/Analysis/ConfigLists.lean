import FStack.Model.ConfigText
import Mathlib.Data.List.TakeWhile

/-!
# Lists of numbers in the configuration file

What the list of a configuration value means is stated here by a grammar: numbers of 16 bits and
ranges `a-b` with `a ≤ b`, with spaces around the numbers and commas between them (`Denotes`).
`__parse_config_list` reads a token with `strtol`, which takes nothing for 0 and everything else for
a number of 64 bits, and compares the number of elements with the capacity one element too late.
`listRight_iff` says for which values it does what the grammar and the capacity say.
-/

set_option autoImplicit false

namespace FStack.Analysis

open FStack.Model

variable {max_ele n : ℕ} {a : ListAcc} {vs : List ℤ} {tok s digits : List Char} {c d : Char}
  {l : List ℕ} {toks : List (List Char)} {parts : List (List ℕ)} {value : String}

/-! ## The lists that are meant -/

/-- A decimal numeral with spaces around it, for a number that a `uint16_t` holds. -/
def Numeral (s : List Char) (n : ℕ) : Prop :=
  ∃ before digits after, s = List.replicate before ' ' ++ digits ++ List.replicate after ' ' ∧
    digits ≠ [] ∧ (∀ c ∈ digits, c.isDigit) ∧ digitsVal digits = n ∧ n < 65536

/-- One element of a list: a number, or a range that is not reversed. -/
inductive Element : List Char → List ℕ → Prop
  | number {s : List Char} {n : ℕ} (h : Numeral s n) : Element s [n]
  | range {s t : List Char} {a b : ℕ} (hs : Numeral s a) (ht : Numeral t b) (hab : a ≤ b) :
    Element (s ++ '-' :: t) (List.range' a (b + 1 - a))

/-- The list that a value stands for. -/
def Denotes (value : List Char) (l : List ℕ) : Prop :=
  ∃ parts, List.Forall₂ Element (value.splitOn ',') parts ∧ parts.flatten = l

/-- `__parse_config_list` is right about a value: it accepts the lists that fit, and stores them
sorted; it rejects everything else; and in neither case does it write outside of the array. -/
def ListRight (max_ele : ℕ) (value : String) : Prop :=
  ∀ arr : ℕ → ℕ,
    (∀ l, Denotes value.toList l → l.length ≤ max_ele →
      (parseConfigList arr max_ele value).ok = true ∧
      (parseConfigList arr max_ele value).sz = l.length ∧
      (List.range l.length).map (parseConfigList arr max_ele value).arr =
        l.insertionSort (· ≤ ·)) ∧
    ((¬ ∃ l, Denotes value.toList l ∧ l.length ≤ max_ele) →
      (parseConfigList arr max_ele value).ok = false) ∧
    ∀ i, max_ele ≤ i → (parseConfigList arr max_ele value).arr i = arr i

/-! ## The lists that are read -/

/-- The numbers from `j` to `rv`, as the loop over a range counts them. -/
def rangeVals (rv : ℤ) : ℕ → ℤ → List ℤ
  | 0, _ => []
  | rounds + 1, j => if j ≤ rv then j :: rangeVals rv rounds (toInt (j + 1)) else []

/-- The numbers that are read from a token, where `strtol` leaves nothing of it; of a range at most
as many as the loop runs. -/
def tokenVals (max_ele : ℕ) (tok : List Char) : Option (List ℤ) :=
  if tok.contains '-' then
    let (lv, lend) := strtol (strstrip (tok.takeWhile (· ≠ '-')))
    let (rv, rend) := strtol (strstrip (tok.dropWhile (· ≠ '-')).tail)
    if lend = [] ∧ rend = [] then some (rangeVals rv (max_ele + 2) (toInt lv)) else none
  else
    let (v, vend) := strtol (strstrip tok)
    if vend = [] then some [v] else none

/-- `strtol` reads the token to its end. -/
def Readable (tok : List Char) : Prop := (tokenVals 0 tok).isSome

instance (tok : List Char) : Decidable (Readable tok) := inferInstanceAs (Decidable (_ = true))

/-- The numbers of the tokens in front of the first one that is not readable. -/
def leadVals (max_ele : ℕ) : List (List Char) → List ℤ
  | [] => []
  | tok :: toks =>
    match tokenVals max_ele tok with
    | none => []
    | some vs => vs ++ leadVals max_ele toks

/-- Store one element. -/
def storeEle (a : ListAcc) (v : ℤ) : ListAcc :=
  ⟨fun i => if i = a.nr_ele then toU16 v else a.arr i, a.nr_ele + 1⟩

@[simp] theorem storeEle_nr_ele (a : ListAcc) (v : ℤ) :
    (storeEle a v).nr_ele = a.nr_ele + 1 := rfl

@[simp] theorem storeEle_arr (a : ListAcc) (v : ℤ) (i : ℕ) :
    (storeEle a v).arr i = if i = a.nr_ele then toU16 v else a.arr i := rfl

/-- Store the elements of a list. -/
def storeAll (a : ListAcc) (vs : List ℤ) : ListAcc := vs.foldl storeEle a

theorem storeAll_nr_ele (a : ListAcc) (vs : List ℤ) :
    (storeAll a vs).nr_ele = a.nr_ele + vs.length := by
  induction vs generalizing a with
  | nil => rfl
  | cons v vs ih =>
    have h := ih (storeEle a v)
    simp only [storeAll, List.foldl_cons, List.length_cons] at h ⊢
    rw [h, storeEle_nr_ele]
    omega

/-- The elements stand behind those that were there, and nothing else is written. -/
theorem storeAll_arr (a : ListAcc) (vs : List ℤ) (i : ℕ) :
    (storeAll a vs).arr i =
      if a.nr_ele ≤ i then (vs[i - a.nr_ele]?.map toU16).getD (a.arr i) else a.arr i := by
  induction vs generalizing a with
  | nil => simp [storeAll]
  | cons v vs ih =>
    have h := ih (storeEle a v)
    simp only [storeAll, List.foldl_cons, storeEle_nr_ele, storeEle_arr] at h ⊢
    rw [h]
    rcases Nat.lt_trichotomy i a.nr_ele with hlt | rfl | hgt
    · simp [show ¬ a.nr_ele + 1 ≤ i by omega, show ¬ a.nr_ele ≤ i by omega, hlt.ne]
    · simp
    · obtain ⟨k, rfl⟩ : ∃ k, i = a.nr_ele + 1 + k := ⟨i - (a.nr_ele + 1), by omega⟩
      have hk : a.nr_ele + 1 + k - a.nr_ele = k + 1 := by omega
      have hk' : a.nr_ele + 1 + k - (a.nr_ele + 1) = k := by omega
      have hne : a.nr_ele + 1 + k ≠ a.nr_ele := by omega
      simp [hk, hk', hne, hgt.le]

theorem toU16_lt (v : ℤ) : toU16 v < 65536 := by
  unfold toU16
  omega

/-! ## The loops -/

theorem push_eq (max_ele : ℕ) (a : ListAcc) (v : ℤ) :
    a.push max_ele v = if max_ele < a.nr_ele then (a, false) else (storeEle a v, true) := rfl

/-- `push` for the elements of a list, until one is refused. -/
def pushAll (max_ele : ℕ) (a : ListAcc) (vs : List ℤ) : ListAcc × Bool :=
  (storeAll a (vs.take (max_ele + 1 - a.nr_ele)),
    decide (a.nr_ele + vs.length ≤ max_ele + 1))

theorem pushAll_nil (h : a.nr_ele ≤ max_ele + 1) :
    pushAll max_ele a [] = (a, true) := by
  simp [pushAll, storeAll, h]

theorem pushAll_cons_of_lt (h : max_ele < a.nr_ele) (v : ℤ) (vs : List ℤ) :
    pushAll max_ele a (v :: vs) = (a, false) := by
  simp only [pushAll, storeAll, show max_ele + 1 - a.nr_ele = 0 by omega, List.take_zero,
    List.foldl_nil, List.length_cons, Prod.mk.injEq, true_and, decide_eq_false_iff_not]
  omega

theorem pushAll_cons_of_le (h : a.nr_ele ≤ max_ele) (v : ℤ) (vs : List ℤ) :
    pushAll max_ele a (v :: vs) = pushAll max_ele (storeEle a v) vs := by
  have hroom : max_ele + 1 - a.nr_ele = max_ele + 1 - (a.nr_ele + 1) + 1 := by omega
  have hlen : a.nr_ele + (vs.length + 1) = a.nr_ele + 1 + vs.length := by omega
  rw [pushAll, pushAll, storeEle_nr_ele, hroom, List.take_succ_cons, List.length_cons, hlen]
  rfl

theorem pushAll_append (h : a.nr_ele + vs.length ≤ max_ele + 1) (ws : List ℤ) :
    pushAll max_ele a (vs ++ ws) = pushAll max_ele (storeAll a vs) ws := by
  induction vs generalizing a with
  | nil => rfl
  | cons v vs ih =>
    rw [List.length_cons] at h
    rw [List.cons_append, pushAll_cons_of_le (by omega), ih (by rw [storeEle_nr_ele]; omega)]
    rfl

theorem pushAll_of_full (h : max_ele + 1 < a.nr_ele + vs.length) (ws : List ℤ) :
    pushAll max_ele a (vs ++ ws) = (storeAll a (vs.take (max_ele + 1 - a.nr_ele)), false) := by
  have hover : ¬ a.nr_ele + (vs.length + ws.length) ≤ max_ele + 1 := by omega
  rw [pushAll, List.take_append_of_le_length (by omega), List.length_append, decide_eq_false hover]

/-- The loop over a range stores the numbers of the range.  It has as many rounds as there
is room, and one for finding out that there is none. -/
theorem pushRange_eq (rv : ℤ) {rounds : ℕ} (j : ℤ) (hnr : a.nr_ele ≤ max_ele + 1)
    (hrounds : max_ele + 2 ≤ a.nr_ele + rounds) :
    a.pushRange max_ele rv rounds j = pushAll max_ele a (rangeVals rv rounds j) := by
  induction rounds generalizing a j with
  | zero => omega
  | succ rounds ih =>
    rw [ListAcc.pushRange, rangeVals]
    by_cases hj : j ≤ rv
    · rw [if_pos hj, if_pos hj, push_eq]
      by_cases hfull : max_ele < a.nr_ele
      · rw [if_pos hfull, pushAll_cons_of_lt hfull]
      · rw [if_neg hfull, pushAll_cons_of_le (by omega)]
        exact ih _ (by rw [storeEle_nr_ele]; omega) (by rw [storeEle_nr_ele]; omega)
    · rw [if_neg hj, if_neg hj, pushAll_nil hnr]

theorem token_of_none (h : tokenVals max_ele tok = none) (a : ListAcc) :
    a.token max_ele tok = (a, false) := by
  unfold tokenVals at h
  unfold ListAcc.token
  split at h <;> simp_all

theorem token_of_some (h : tokenVals max_ele tok = some vs) (hnr : a.nr_ele ≤ max_ele + 1) :
    a.token max_ele tok = pushAll max_ele a vs := by
  unfold tokenVals at h
  unfold ListAcc.token
  split at h
  next hdash =>
    rw [if_pos hdash]
    dsimp only at h ⊢
    split at h
    next hend =>
      cases h
      rw [if_neg (by simpa using hend.1), if_neg (by simpa using hend.2)]
      exact pushRange_eq _ _ hnr (by omega)
    next => cases h
  next hdash =>
    rw [if_neg hdash]
    dsimp only at h ⊢
    split at h
    next hend =>
      cases h
      rw [if_neg (by simpa using hend), push_eq]
      by_cases hfull : max_ele < a.nr_ele
      · rw [if_pos hfull, pushAll_cons_of_lt hfull]
      · rw [if_neg hfull, pushAll_cons_of_le (by omega), pushAll_nil]
        rw [storeEle_nr_ele]
        omega
    next => cases h

/-- The value that the loop over the tokens returns, and what it stores before. -/
theorem tokens_eq {max_ele : ℕ} (toks : List (List Char)) {a : ListAcc}
    (hnr : a.nr_ele ≤ max_ele + 1) :
    ListAcc.tokens max_ele a toks =
      ((pushAll max_ele a (leadVals max_ele toks)).1,
        (pushAll max_ele a (leadVals max_ele toks)).2 &&
          toks.all fun tok => (tokenVals max_ele tok).isSome) := by
  induction toks generalizing a with
  | nil =>
    rw [ListAcc.tokens, leadVals, pushAll_nil hnr]
    rfl
  | cons tok toks ih =>
    cases hv : tokenVals max_ele tok with
    | none =>
      rw [ListAcc.tokens, token_of_none hv]
      simp [leadVals, hv, pushAll_nil hnr]
    | some vs =>
      rw [ListAcc.tokens, token_of_some hv hnr]
      by_cases hroom : a.nr_ele + vs.length ≤ max_ele + 1
      · have hpush : pushAll max_ele a vs = (storeAll a vs, true) := by
          simp only [pushAll, hroom, decide_true]
          rw [List.take_of_length_le (by omega)]
        rw [hpush]
        dsimp only
        rw [ih (by rw [storeAll_nr_ele]; omega)]
        simp only [leadVals, hv, pushAll_append hroom, List.all_cons, Option.isSome_some,
          Bool.true_and]
      · rw [← List.append_nil vs, pushAll_of_full (by omega)]
        simp only [leadVals, hv, pushAll_of_full (Nat.lt_of_not_le hroom), Bool.false_and]

/-! ## Tokens of the grammar -/

theorem isDigit_bounds (h : c.isDigit = true) : 48 ≤ c.toNat ∧ c.toNat ≤ 57 := by
  simp only [Char.isDigit, Bool.and_eq_true, decide_eq_true_eq] at h
  exact h

theorem isDigit_ne (h : c.isDigit = true) (hd : d.isDigit = false) : c ≠ d := by
  rintro rfl
  simp_all

theorem isSpace_of_isDigit (h : c.isDigit = true) : isSpace c = false := by
  have hb := isDigit_bounds h
  have hne := fun d (hd : Char.isDigit d = false) => isDigit_ne h hd
  simp only [isSpace, hne ' ' (by decide), hne '\t' (by decide), hne '\n' (by decide),
    hne '\r' (by decide), decide_false, Bool.false_or, Bool.or_eq_false_iff,
    decide_eq_false_iff_not]
  omega

theorem toInt_nat (h : n ≤ 65536) : toInt n = n := by
  rw [toInt, Int.bmod_eq_of_le] <;> omega

theorem takeWhile_cut (h : d ∉ s) (t : List Char) :
    (s ++ d :: t).takeWhile (· ≠ d) = s := by
  rw [List.takeWhile_append_of_pos fun c hc => decide_eq_true (ne_of_mem_of_not_mem hc h)]
  simp

theorem dropWhile_cut (h : d ∉ s) (t : List Char) :
    (s ++ d :: t).dropWhile (· ≠ d) = d :: t := by
  rw [List.dropWhile_append_of_pos fun c hc => decide_eq_true (ne_of_mem_of_not_mem hc h)]
  simp

theorem dropWhile_of_head {p : Char → Bool} (h : ∀ c ∈ s, p c = false) :
    s.dropWhile p = s := by
  cases s with
  | nil => rfl
  | cons c s => rw [List.dropWhile_cons, if_neg (by simp [h c (by simp)])]

theorem strstrip_numeral (hdigits : ∀ c ∈ digits, c.isDigit = true) (before after : ℕ) :
    strstrip (List.replicate before ' ' ++ digits ++ List.replicate after ' ') = digits := by
  have hspace : ∀ n, ∀ c ∈ List.replicate n ' ', decide (c = ' ') = true := by
    intro n c hc
    simpa using (List.mem_replicate.mp hc).2
  have hdigit : ∀ c ∈ digits, decide (c = ' ') = false := by
    intro c hc
    exact decide_eq_false (isDigit_ne (hdigits c hc) (by decide))
  rw [strstrip, List.append_assoc, List.dropWhile_append_of_pos (hspace before)]
  cases digits with
  | nil => simp
  | cons d digits =>
    rw [List.cons_append, List.dropWhile_cons, if_neg (by simpa using hdigit d (by simp)),
      ← List.cons_append, List.reverse_append, List.reverse_replicate,
      List.dropWhile_append_of_pos (hspace after), dropWhile_of_head, List.reverse_reverse]
    intro c hc
    exact hdigit c (List.mem_reverse.mp hc)

theorem scanDigits_digits (hne : digits ≠ []) (hdigits : ∀ c ∈ digits, c.isDigit = true)
    (hval : digitsVal digits < 65536) :
    scanDigits digits = some ((digitsVal digits : ℤ), []) := by
  have htake : digits.takeWhile Char.isDigit = digits := List.takeWhile_eq_self_iff.mpr hdigits
  have hdrop : digits.dropWhile Char.isDigit = [] := List.dropWhile_eq_nil_iff.mpr hdigits
  have hclamp : clampLong (digitsVal digits) = digitsVal digits := by
    rw [clampLong]
    omega
  unfold scanDigits
  split
  next heq =>
    split at heq
    · exact absurd (hdigits '-' (by simp)) (by decide)
    · exact absurd (hdigits '+' (by simp)) (by decide)
    · cases heq
      simp [htake, hdrop, hne, hclamp]

theorem strtol_digits (hne : digits ≠ []) (hdigits : ∀ c ∈ digits, c.isDigit = true)
    (hval : digitsVal digits < 65536) :
    strtol digits = ((digitsVal digits : ℤ), []) := by
  rw [strtol, dropWhile_of_head fun c hc => isSpace_of_isDigit (hdigits c hc),
    scanDigits_digits hne hdigits hval]
  rfl

theorem strtol_numeral (h : Numeral s n) :
    strtol (strstrip s) = ((n : ℤ), []) := by
  obtain ⟨before, digits, after, rfl, hne, hdigits, rfl, hval⟩ := h
  rw [strstrip_numeral hdigits, strtol_digits hne hdigits hval]

theorem Numeral.not_mem (h : Numeral s n) (hspace : c ≠ ' ') (hc : c.isDigit = false) : c ∉ s := by
  obtain ⟨before, digits, after, rfl, -, hdigits, -, -⟩ := h
  simp only [List.mem_append, List.mem_replicate, not_or, not_and]
  refine ⟨⟨fun _ => hspace, fun hmem => ?_⟩, fun _ => hspace⟩
  simp [hdigits c hmem] at hc

theorem Numeral.ne_nil (h : Numeral s n) : s ≠ [] := by
  obtain ⟨before, digits, after, rfl, hne, -⟩ := h
  simp [hne]

theorem Numeral.lt (h : Numeral s n) : n < 65536 := by
  obtain ⟨-, -, -, -, -, -, -, h⟩ := h
  exact h

theorem Element.ne_nil (h : Element s l) : s ≠ [] := by
  cases h with
  | number h => exact h.ne_nil
  | range => simp

theorem Element.lt (h : Element s l) : ∀ n ∈ l, n < 65536 := by
  cases h with
  | number h => simpa using h.lt
  | range hs ht hab =>
    intro n hn
    have := ht.lt
    simp only [List.mem_range'_1] at hn
    omega

theorem rangeVals_nat (b : ℕ) (hb : b < 65536) (rounds a : ℕ) (ha : a ≤ b + 1) :
    rangeVals b rounds a =
      ((List.range' a (b + 1 - a)).map (fun n : ℕ => (n : ℤ))).take rounds := by
  induction rounds generalizing a with
  | zero => rfl
  | succ rounds ih =>
    rw [rangeVals]
    by_cases hj : (a : ℤ) ≤ b
    · have hnext : toInt ((a : ℤ) + 1) = ((a + 1 : ℕ) : ℤ) := toInt_nat (n := a + 1) (by omega)
      have hlen : b + 1 - a = b + 1 - (a + 1) + 1 := by omega
      rw [if_pos hj, hnext, ih (a + 1) (by omega), hlen, List.range'_succ]
      rfl
    · rw [if_neg hj, show b + 1 - a = 0 by omega]
      rfl

theorem tokenVals_of_element (h : Element tok l) (max_ele : ℕ) :
    tokenVals max_ele tok = some ((l.map (fun n : ℕ => (n : ℤ))).take (max_ele + 2)) := by
  cases h with
  | number h =>
    have hdash : '-' ∉ tok := h.not_mem (by decide) (by decide)
    rw [tokenVals, if_neg (by simpa using hdash), strtol_numeral h]
    rfl
  | @range s t a b hs ht hab =>
    have hdash : '-' ∉ s := hs.not_mem (by decide) (by decide)
    have hbound : toInt a = a := toInt_nat hs.lt.le
    rw [tokenVals, if_pos (by simp), takeWhile_cut hdash, dropWhile_cut hdash, List.tail_cons,
      strtol_numeral hs, strtol_numeral ht]
    simp only [hbound, and_self, if_true]
    rw [rangeVals_nat b ht.lt _ a (by omega)]

/-! ## Commas -/

theorem mem_dropWhile {p : Char → Bool} (hc : c ∈ s) (hp : p c = false) : c ∈ s.dropWhile p := by
  rw [← List.takeWhile_append_dropWhile (p := p) (l := s), List.mem_append] at hc
  obtain h | h := hc
  · simp [List.mem_takeWhile_imp h] at hp
  · exact h

theorem mem_strstrip (hc : c ∈ s) (hspace : c ≠ ' ') :
    c ∈ strstrip s := by
  have hp : decide (c = ' ') = false := decide_eq_false hspace
  rw [strstrip, List.mem_reverse]
  exact mem_dropWhile (List.mem_reverse.mpr (mem_dropWhile hc hp)) hp

theorem scanDigits_end {v : ℤ} (h : scanDigits s = some (v, [])) (hc : c ∈ s) :
    c = '-' ∨ c = '+' ∨ c.isDigit = true := by
  unfold scanDigits at h
  split at h
  next neg ds heq =>
    have hall : ∀ d ∈ ds, d.isDigit = true := by
      rw [← List.dropWhile_eq_nil_iff]
      dsimp only at h
      by_cases hnum : ds.takeWhile Char.isDigit = []
      · simp [hnum] at h
      · simp only [hnum, if_false, Option.some.injEq, Prod.mk.injEq] at h
        exact h.2
    split at heq <;> cases heq
    · rcases List.mem_cons.mp hc with rfl | hmem
      · exact .inl rfl
      · exact .inr (.inr (hall c hmem))
    · rcases List.mem_cons.mp hc with rfl | hmem
      · exact .inr (.inl rfl)
      · exact .inr (.inr (hall c hmem))
    · exact .inr (.inr (hall c hc))

/-- `strtol` does not read over a comma. -/
theorem strtol_comma (h : (strtol s).2 = []) : ',' ∉ s := by
  intro hc
  rw [strtol] at h
  cases hscan : scanDigits (s.dropWhile isSpace) with
  | none =>
    rw [hscan] at h
    cases h
    cases hc
  | some p =>
    obtain ⟨v, rest⟩ := p
    rw [hscan] at h
    cases h
    have hchar := scanDigits_end hscan (mem_dropWhile hc (by decide))
    simp at hchar

theorem not_readable_of_comma (h : ',' ∈ tok) (max_ele : ℕ) :
    tokenVals max_ele tok = none := by
  unfold tokenVals
  split
  next hdash =>
    dsimp only
    rw [if_neg]
    rintro ⟨hl, hr⟩
    obtain ⟨s, t, rfl, hs⟩ := List.eq_append_cons_of_mem (by simpa using hdash)
    rw [takeWhile_cut hs] at hl
    rw [dropWhile_cut hs, List.tail_cons] at hr
    simp only [List.mem_append, List.mem_cons] at h
    obtain hmem | hcomma | hmem := h
    · exact strtol_comma hl (mem_strstrip hmem (by decide))
    · exact absurd hcomma (by decide)
    · exact strtol_comma hr (mem_strstrip hmem (by decide))
  next hdash =>
    dsimp only
    rw [if_neg]
    intro hend
    exact strtol_comma hend (mem_strstrip h (by decide))

/-- A text with few enough elements, none of them empty, is split at all of its commas. -/
theorem rteStrsplit_eq (hlen : (s.splitOn ',').length ≤ n) (hne : ∀ t ∈ s.splitOn ',', t ≠ []) :
    rteStrsplit ',' n s = s.splitOn ',' := by
  induction n generalizing s with
  | zero =>
    exact absurd (List.length_eq_zero_iff.mp (Nat.le_zero.mp hlen)) (List.splitOn_ne_nil _ _)
  | succ n ih =>
    by_cases hcomma : ',' ∈ s
    · obtain ⟨front, rest, rfl, hfront⟩ := List.eq_append_cons_of_mem hcomma
      rw [List.splitOn_append_cons_self_of_not_mem hfront] at hlen hne ⊢
      obtain ⟨m, rfl⟩ : ∃ m, n = m + 1 := by
        have := List.length_pos_of_ne_nil (List.splitOn_ne_nil ',' rest)
        rw [List.length_cons] at hlen
        exact ⟨n - 1, by omega⟩
      have hrest := ih (Nat.le_of_succ_le_succ hlen) fun t ht => hne t (List.mem_cons_of_mem _ ht)
      obtain ⟨c, front', rfl⟩ := List.exists_cons_of_ne_nil (hne front (by simp))
      rw [List.cons_append, rteStrsplit, ← List.cons_append, takeWhile_cut hfront,
        dropWhile_cut hfront, List.tail_cons, hrest]
    · rw [List.splitOn_eq_singleton hcomma] at hne ⊢
      obtain ⟨c, t, rfl⟩ := List.exists_cons_of_ne_nil (hne s (by simp))
      have hall : ∀ d ∈ c :: t, decide (d ≠ ',') = true := fun d hd =>
        decide_eq_true (ne_of_mem_of_not_mem hd hcomma)
      cases n with
      | zero => rw [rteStrsplit, if_neg (by simpa using hall c (by simp))]
      | succ n =>
        rw [rteStrsplit, List.takeWhile_eq_self_iff.mpr hall, List.dropWhile_eq_nil_iff.mpr hall]
        simp [rteStrsplit]

/-- Where there are too many, a comma is left in the last token. -/
theorem rteStrsplit_comma (hlen : n + 1 < (s.splitOn ',').length) (hne : ∀ t ∈ s.splitOn ',', t ≠ []) :
    ∃ tok ∈ rteStrsplit ',' (n + 1) s, ',' ∈ tok := by
  induction n generalizing s with
  | zero =>
    by_cases hcomma : ',' ∈ s
    · obtain ⟨front, rest, rfl, hfront⟩ := List.eq_append_cons_of_mem hcomma
      rw [List.splitOn_append_cons_self_of_not_mem hfront] at hne
      obtain ⟨c, front', rfl⟩ := List.exists_cons_of_ne_nil (hne front (by simp))
      have hc : c ≠ ',' := fun h => hfront (by simp [h])
      refine ⟨_, ?_, hcomma⟩
      rw [List.cons_append, rteStrsplit, if_neg hc]
      simp
    · rw [List.splitOn_eq_singleton hcomma] at hlen
      simp at hlen
  | succ n ih =>
    by_cases hcomma : ',' ∈ s
    · obtain ⟨front, rest, rfl, hfront⟩ := List.eq_append_cons_of_mem hcomma
      rw [List.splitOn_append_cons_self_of_not_mem hfront] at hlen hne
      obtain ⟨tok, htok, hmem⟩ :=
        ih (Nat.lt_of_succ_lt_succ hlen) fun t ht => hne t (List.mem_cons_of_mem _ ht)
      obtain ⟨c, front', rfl⟩ := List.exists_cons_of_ne_nil (hne front (by simp))
      refine ⟨tok, ?_, hmem⟩
      rw [List.cons_append, rteStrsplit, ← List.cons_append, dropWhile_cut hfront, List.tail_cons]
      exact List.mem_cons_of_mem _ htok
    · rw [List.splitOn_eq_singleton hcomma] at hlen
      simp at hlen

/-! ## The parser -/

theorem tokenVals_isSome (max_ele : ℕ) (tok : List Char) :
    (tokenVals max_ele tok).isSome = decide (Readable tok) := by
  unfold Readable tokenVals
  split
  · dsimp only
    split <;> simp
  · dsimp only
    split <;> simp

theorem elements_left (h : List.Forall₂ Element toks parts) :
    ∀ tok ∈ toks, ∃ part, Element tok part := by
  induction h with
  | nil => simp
  | cons hele _ ih => exact List.forall_mem_cons.mpr ⟨⟨_, hele⟩, ih⟩

theorem elements_right (h : List.Forall₂ Element toks parts) :
    ∀ part ∈ parts, ∃ tok, Element tok part := by
  induction h with
  | nil => simp
  | cons hele _ ih => exact List.forall_mem_cons.mpr ⟨⟨_, hele⟩, ih⟩

/-- Where there is room for the numbers that are read or for the list that is meant, the
two are the same. -/
theorem leadVals_of_elements (h : List.Forall₂ Element toks parts)
    (hlen : (leadVals max_ele toks).length ≤ max_ele ∨ parts.flatten.length ≤ max_ele) :
    leadVals max_ele toks = parts.flatten.map (fun n : ℕ => (n : ℤ)) := by
  induction h with
  | nil => rfl
  | @cons tok part toks parts hele _ ih =>
    have hcons : leadVals max_ele (tok :: toks) =
        (part.map (fun n : ℕ => (n : ℤ))).take (max_ele + 2) ++ leadVals max_ele toks := by
      simp only [leadVals, tokenVals_of_element hele]
    rw [hcons] at hlen ⊢
    simp only [List.length_append, List.length_take, List.length_map, List.flatten_cons] at hlen
    rw [List.take_of_length_le (by rw [List.length_map]; omega), ih (by omega), List.flatten_cons,
      List.map_append]

theorem map_storeAll (arr : ℕ → ℕ) (vs : List ℤ) :
    (List.range vs.length).map (storeAll ⟨arr, 0⟩ vs).arr = vs.map toU16 := by
  apply List.ext_getElem
  · simp
  · intro i hi _
    have hlt : i < vs.length := by simpa using hi
    simp [storeAll_arr, hlt]

theorem map_sortArray (arr : ℕ → ℕ) (n : ℕ) :
    (List.range n).map (sortArray arr n) =
      ((List.range n).map arr).insertionSort (· ≤ ·) := by
  apply List.ext_getElem
  · simp
  · intro i hi _
    have hlt : i < n := by simpa using hi
    simp [sortArray, hlt]

/-- The numbers that are read from a value before one of its tokens is refused. -/
def readVals (max_ele : ℕ) (value : String) : List ℤ :=
  leadVals max_ele (rteStrsplit ',' 128 value.toList)

/-- What is stored of the numbers that are read, and when a value is accepted. -/
theorem parseConfigList_eq (arr : ℕ → ℕ) (max_ele : ℕ) (value : String) :
    parseConfigList arr max_ele value =
      let a := storeAll ⟨arr, 0⟩ ((readVals max_ele value).take (max_ele + 1))
      if (readVals max_ele value).length ≤ max_ele + 1 ∧
          ∀ tok ∈ rteStrsplit ',' 128 value.toList, Readable tok then
        if a.nr_ele = 0 then ⟨a.arr, max_ele, true⟩
        else ⟨sortArray a.arr a.nr_ele, a.nr_ele, true⟩
      else ⟨a.arr, max_ele, false⟩ := by
  have htokens := @tokens_eq max_ele (rteStrsplit ',' 128 value.toList) ⟨arr, 0⟩ (Nat.zero_le _)
  have hall : ((rteStrsplit ',' 128 value.toList).all fun tok => (tokenVals max_ele tok).isSome) =
      decide (∀ tok ∈ rteStrsplit ',' 128 value.toList, Readable tok) := by
    rw [Bool.eq_iff_iff]
    simp [tokenVals_isSome]
  rw [hall, ← readVals, pushAll, Nat.zero_add, Nat.sub_zero, ← Bool.decide_and] at htokens
  dsimp only
  by_cases hyes : (readVals max_ele value).length ≤ max_ele + 1 ∧
      ∀ tok ∈ rteStrsplit ',' 128 value.toList, Readable tok
  · rw [if_pos hyes, parseConfigList, htokens, decide_eq_true hyes]
  · rw [if_neg hyes, parseConfigList, htokens, decide_eq_false hyes]

/-- The values that `__parse_config_list` is right about: the numbers in front of the first token
that `strtol` does not read to its end have room; the value is a list of the grammar, or there is such
a token; and a list of the grammar that fits has no more than 128 elements between its commas. -/
structure ListOk (max_ele : ℕ) (value : String) : Prop where
  room : (readVals max_ele value).length ≤ max_ele
  meant : (∃ l, Denotes value.toList l) ∨ ∃ tok ∈ rteStrsplit ',' 128 value.toList, ¬ Readable tok
  few : ∀ l, Denotes value.toList l → l.length ≤ max_ele →
    (value.toList.splitOn ',').length ≤ 128

/-- A list of the grammar that is split at all of its commas is read as it is meant, as
soon as there is room for either. -/
theorem readVals_of_denotes (hl : Denotes value.toList l)
    (hfew : (value.toList.splitOn ',').length ≤ 128)
    (hlen : (readVals max_ele value).length ≤ max_ele ∨ l.length ≤ max_ele) :
    readVals max_ele value = l.map (fun n : ℕ => (n : ℤ)) ∧
      ∀ tok ∈ rteStrsplit ',' 128 value.toList, Readable tok := by
  obtain ⟨parts, hparts, rfl⟩ := hl
  have hele := elements_left hparts
  have hsplit : rteStrsplit ',' 128 value.toList = value.toList.splitOn ',' :=
    rteStrsplit_eq hfew fun tok htok => (hele tok htok).choose_spec.ne_nil
  unfold readVals at hlen ⊢
  rw [hsplit] at hlen ⊢
  refine ⟨leadVals_of_elements hparts hlen, fun tok htok => ?_⟩
  obtain ⟨part, h⟩ := hele tok htok
  rw [Readable, tokenVals_of_element h]
  rfl

theorem Element.length_pos (h : Element s l) : 0 < l.length := by
  cases h with
  | number => exact Nat.one_pos
  | range _ _ hab =>
    rw [List.length_range']
    omega

theorem Denotes.length_pos {value : List Char} (h : Denotes value l) :
    0 < l.length := by
  obtain ⟨parts, hparts, rfl⟩ := h
  cases hsplit : value.splitOn ',' with
  | nil => exact absurd hsplit (List.splitOn_ne_nil _ _)
  | cons tok toks =>
    rw [hsplit] at hparts
    cases hparts with
    | cons hele _ =>
      have := hele.length_pos
      rw [List.flatten_cons, List.length_append]
      omega

theorem Denotes.lt {value : List Char} (h : Denotes value l) :
    ∀ n ∈ l, n < 65536 := by
  obtain ⟨parts, hparts, rfl⟩ := h
  intro n hn
  obtain ⟨part, hpart, hn⟩ := List.mem_flatten.mp hn
  obtain ⟨tok, hele⟩ := elements_right hparts part hpart
  exact hele.lt n hn

/-- A list of the grammar with too many elements is never read to its end. -/
theorem Denotes.few {value : List Char} (h : Denotes value l)
    (hread : ∀ tok ∈ rteStrsplit ',' 128 value, Readable tok) :
    (value.splitOn ',').length ≤ 128 := by
  obtain ⟨parts, hparts, -⟩ := h
  by_contra hmany
  have hne : ∀ t ∈ value.splitOn ',', t ≠ [] := fun t ht => by
    obtain ⟨part, hele⟩ := elements_left hparts t ht
    exact hele.ne_nil
  obtain ⟨tok, htok, hcomma⟩ := rteStrsplit_comma (Nat.lt_of_not_le hmany) hne
  have := hread tok htok
  rw [Readable, not_readable_of_comma hcomma] at this
  cases this

theorem map_toU16 (h : ∀ n ∈ l, n < 65536) :
    (l.map (fun n : ℕ => (n : ℤ))).map toU16 = l := by
  rw [List.map_map]
  conv_rhs => rw [← List.map_id l]
  refine List.map_congr_left fun n hn => ?_
  have := h n hn
  simp only [Function.comp_apply, toU16, id_eq]
  omega

theorem storeAll_lt {arr : ℕ → ℕ} {vs : List ℤ} {i : ℕ} (h : i < vs.length) :
    (storeAll ⟨arr, 0⟩ vs).arr i < 65536 := by
  simp [storeAll_arr, h, toU16_lt]

/-- A number is stored behind the array when there are too many. -/
theorem arr_lt_of_over {arr : ℕ → ℕ} {max_ele : ℕ} {value : String}
    (h : max_ele < (readVals max_ele value).length) :
    (parseConfigList arr max_ele value).arr max_ele < 65536 := by
  have hlen : ((readVals max_ele value).take (max_ele + 1)).length = max_ele + 1 := by
    rw [List.length_take]
    omega
  rw [parseConfigList_eq]
  dsimp only
  rw [storeAll_nr_ele, hlen]
  split
  · rw [if_neg (by omega)]
    have hmem : (sortArray (storeAll ⟨arr, 0⟩ ((readVals max_ele value).take (max_ele + 1))).arr
        (0 + (max_ele + 1))) max_ele ∈
        (List.range (max_ele + 1)).map (storeAll ⟨arr, 0⟩
          ((readVals max_ele value).take (max_ele + 1))).arr := by
      rw [Nat.zero_add, ← List.mem_insertionSort (· ≤ ·), ← map_sortArray]
      exact List.mem_map_of_mem (by simp)
    obtain ⟨i, hi, heq⟩ := List.mem_map.mp hmem
    have hlt : i < ((readVals max_ele value).take (max_ele + 1)).length := by
      rw [hlen]
      exact List.mem_range.mp hi
    have hval := @storeAll_lt arr _ _ hlt
    rw [heq] at hval
    exact hval
  · exact storeAll_lt (by omega)

theorem ListOk.of_right (h : ListRight max_ele value) :
    ListOk max_ele value := by
  have hroom : (readVals max_ele value).length ≤ max_ele := by
    by_contra hover
    have hlt := @arr_lt_of_over (fun _ => 65536) _ _ (Nat.lt_of_not_le hover)
    rw [(h fun _ => 65536).2.2 max_ele (le_refl _)] at hlt
    omega
  obtain ⟨haccept, hreject, -⟩ := h fun _ => 0
  rw [parseConfigList_eq] at haccept hreject
  dsimp only at haccept hreject
  refine ⟨hroom, ?_, fun l hl hlen => ?_⟩
  · by_contra hneither
    obtain ⟨hno, hall⟩ := not_or.mp hneither
    have hread : ∀ tok ∈ rteStrsplit ',' 128 value.toList, Readable tok := fun tok htok =>
      by_contra fun hnot => hall ⟨tok, htok, hnot⟩
    have hnone : ¬ ∃ l, Denotes value.toList l ∧ l.length ≤ max_ele := fun ⟨l, hl, _⟩ =>
      hno ⟨l, hl⟩
    have hfalse := hreject hnone
    rw [if_pos ⟨by omega, hread⟩] at hfalse
    split at hfalse <;> cases hfalse
  · apply hl.few
    have htrue := (haccept l hl hlen).1
    split at htrue
    next hyes => exact hyes.2
    next => cases htrue

theorem ListOk.right (h : ListOk max_ele value) :
    ListRight max_ele value := by
  intro arr
  have htake : (readVals max_ele value).take (max_ele + 1) = readVals max_ele value :=
    List.take_of_length_le (by have := h.room; omega)
  rw [parseConfigList_eq, htake]
  dsimp only
  rw [storeAll_nr_ele, Nat.zero_add]
  refine ⟨fun l hl hlen => ?_, fun hno => ?_, fun i hi => ?_⟩
  · obtain ⟨hvals, hread⟩ := readVals_of_denotes hl (h.few l hl hlen) (.inr hlen)
    have hpos := hl.length_pos
    have hcount : (readVals max_ele value).length = l.length := by
      rw [hvals, List.length_map]
    rw [if_pos ⟨by omega, hread⟩, if_neg (by omega)]
    refine ⟨rfl, hcount, ?_⟩
    dsimp only
    rw [← hcount, map_sortArray, map_storeAll, hvals, map_toU16 hl.lt]
  · split
    next hyes =>
      obtain ⟨l, hl⟩ := h.meant.resolve_right fun ⟨tok, htok, hnot⟩ => hnot (hyes.2 tok htok)
      have hvals := (readVals_of_denotes hl (hl.few hyes.2) (.inl h.room)).1
      have hcount : (readVals max_ele value).length = l.length := by
        rw [hvals, List.length_map]
      exact absurd ⟨l, hl, hcount ▸ h.room⟩ hno
    next => rfl
  · have hroom := h.room
    have hsame : (storeAll ⟨arr, 0⟩ (readVals max_ele value)).arr i = arr i := by
      have hout : (readVals max_ele value).length ≤ i - 0 := by omega
      rw [storeAll_arr, if_pos (Nat.zero_le _), List.getElem?_eq_none hout]
      rfl
    split
    · split
      · exact hsame
      · dsimp only
        rw [sortArray, if_neg (by omega), hsame]
    · exact hsame

/-- `__parse_config_list` accepts exactly the lists of the grammar that fit, stores them sorted and
stays inside of the array, for the values of `ListOk` and for no others. -/
theorem listRight_iff (max_ele : ℕ) (value : String) :
    ListRight max_ele value ↔ ListOk max_ele value :=
  ⟨.of_right, ListOk.right⟩

/-- The list `1,2` does not fit into an array of one element, and its second number is stored behind
it. -/
theorem not_listRight_two : ¬ ListRight 1 "1,2" := by
  intro h
  have := (h fun _ => 65536).2.2 1 (le_refl _)
  revert this
  decide

end FStack.Analysis
