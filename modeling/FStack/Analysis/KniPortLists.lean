import FStack.Analysis.ConfigLists
import FStack.Model.KniQueue
import Mathlib.Data.Nat.Bitwise

/-!
# The port lists of the kernel interface

What a list means is stated by a grammar: decimal ports and ranges `a-b` with `a ≤ b`, with commas
between them (`PortList`).  In a text of the grammar the next dash stands in front of the next comma
exactly when the list goes on with a range, so a round of `kni_set_bitmap` reads one element
(`kniSetElement_spec`).  The bits are set for ports in network byte order, which is how the filter
asks for them (`getBitmap_setBitmap`).
-/

set_option autoImplicit false

namespace FStack.Analysis

open FStack.Model

variable {l : List ℕ} {n : ℕ} {s rest : List Char} {c : Char}

/-! ## The lists that are meant -/

/-- A decimal numeral for a port. -/
structure PortNumeral (s : List Char) (n : ℕ) : Prop where
  ne_nil : s ≠ []
  digits : ∀ c ∈ s, c.isDigit = true
  val : digitsVal s = n
  lt : n < 65536

/-- A port, or a range that is not reversed. -/
inductive PortElement : List Char → List ℕ → Prop
  | port {s : List Char} {n : ℕ} (h : PortNumeral s n) : PortElement s [n]
  | range {s t : List Char} {a b : ℕ} (hs : PortNumeral s a) (ht : PortNumeral t b) (hab : a ≤ b) :
      PortElement (s ++ '-' :: t) (List.range' a (b + 1 - a))

/-- A list of ports, and what it denotes. -/
inductive PortList : List Char → List ℕ → Prop
  | last {s : List Char} {l : List ℕ} (h : PortElement s l) : PortList s l
  | more {s rest : List Char} {l ls : List ℕ} (h : PortElement s l) (hrest : PortList rest ls) :
      PortList (s ++ ',' :: rest) (l ++ ls)

/-! ## The bitmap -/

/-- INTERNAL: One bit of a byte, set and asked for. -/
theorem bit_or (x i j : ℕ) (hi : i < 8) (hj : j < 8) :
    (0 < (x ||| (0x80 >>> i)) &&& (0x80 >>> j)) ↔ i = j ∨ 0 < x &&& (0x80 >>> j) := by
  have hpow : ∀ k < 8, 0x80 >>> k = 2 ^ (7 - k) := by decide
  rw [hpow i hi, hpow j hj, Nat.and_two_pow, Nat.and_two_pow, Nat.testBit_or,
    Nat.testBit_two_pow]
  have hij : 7 - i = 7 - j ↔ i = j := by omega
  have hpos : 0 < 2 ^ (7 - j) := Nat.two_pow_pos _
  cases x.testBit (7 - j) with
  | true => simp [hpos]
  | false =>
    by_cases h : i = j
    · simp [h, hpos]
    · simp [h, hij]

theorem getBitmap_iff (port : ℕ) (bitmap : PortBitmap) :
    getBitmap port bitmap = true ↔ 0 < (bitmap (port / 8)).toNat &&& (0x80 >>> (port % 8)) :=
  decide_eq_true_iff

/-- **The bit of a port is set by that port only.** -/
theorem getBitmap_setBitmap (p q : UInt16) (bitmap : PortBitmap) :
    getBitmap (htons p).toNat (setBitmap q bitmap) = true ↔
      p = q ∨ getBitmap (htons p).toNat bitmap = true := by
  have hsame : (htons q).toNat / 8 = (htons p).toNat / 8 →
      ((htons q).toNat % 8 = (htons p).toNat % 8 ↔ p = q) := by
    intro hbyte
    constructor
    · intro hbit
      have heq : (htons p).toNat = (htons q).toNat := by omega
      rw [← htons_htons p, UInt16.toNat_inj.mp heq, htons_htons]
    · rintro rfl
      rfl
  rw [getBitmap_iff, getBitmap_iff]
  simp only [setBitmap]
  by_cases hbyte : (htons q).toNat / 8 = (htons p).toNat / 8
  · have hlt : ((bitmap ((htons p).toNat / 8)).toNat ||| (0x80 >>> ((htons q).toNat % 8))) < 2 ^ 8 := by
      apply Nat.or_lt_two_pow
      · exact (bitmap ((htons p).toNat / 8)).toNat_lt
      · exact Nat.lt_of_le_of_lt (Nat.shiftRight_le _ _) (by decide)
    rw [hbyte, Function.update_self, UInt8.toNat_ofNat', Nat.mod_eq_of_lt hlt,
      bit_or _ _ _ (Nat.mod_lt _ (by decide)) (Nat.mod_lt _ (by decide)), hsame hbyte]
  · rw [Function.update_of_ne (Ne.symm hbyte)]
    have hne : p ≠ q := by
      rintro rfl
      exact hbyte rfl
    simp [hne]

/-- A bitmap holds the ports of a list, besides those of another bitmap. -/
def HoldsPorts (bitmap : PortBitmap) (l : List ℕ) (bitmap' : PortBitmap) : Prop :=
  ∀ p : UInt16, getBitmap (htons p).toNat bitmap' = true ↔
    p.toNat ∈ l ∨ getBitmap (htons p).toNat bitmap = true

theorem HoldsPorts.append {b b' b'' : PortBitmap} {ls : List ℕ} (h : HoldsPorts b l b')
    (h' : HoldsPorts b' ls b'') : HoldsPorts b (l ++ ls) b'' := by
  intro p
  rw [h' p, h p, List.mem_append]
  tauto

theorem holdsPorts_setBitmap (hn : n < 65536) (bitmap : PortBitmap) :
    HoldsPorts bitmap [n] (setBitmap (UInt16.ofNat (toU16 n)) bitmap) := by
  intro p
  have hport : (UInt16.ofNat (toU16 (n : ℤ))).toNat = n := by
    rw [UInt16.toNat_ofNat', toU16]
    omega
  rw [getBitmap_setBitmap, ← UInt16.toNat_inj, hport, List.mem_singleton]

/-! ## Numbers -/

/-- INTERNAL: `strtol` stops behind the digits. -/
theorem strtol_digits_append (h : PortNumeral s n) (hrest : ∀ c ∈ rest.head?, c.isDigit = false) :
    (strtol (s ++ rest)).1 = n := by
  obtain ⟨hne, hdigits, hval, hlt⟩ := h
  have hstop : rest.takeWhile Char.isDigit = [] := by
    cases rest with
    | nil => rfl
    | cons c rest => simp [hrest c rfl]
  have htake : (s ++ rest).takeWhile Char.isDigit = s := by
    rw [List.takeWhile_append_of_pos hdigits, hstop, List.append_nil]
  have hclamp : clampLong (digitsVal s) = digitsVal s := by
    rw [clampLong]
    omega
  cases s with
  | nil => exact absurd rfl hne
  | cons c s =>
    have hc : c.isDigit = true := hdigits c List.mem_cons_self
    have hspace : ((c :: s) ++ rest).dropWhile isSpace = (c :: s) ++ rest := by
      rw [List.cons_append, List.dropWhile_cons, isSpace_of_isDigit hc]
      rfl
    have hscan : scanDigits ((c :: s) ++ rest) =
        some ((digitsVal (c :: s) : ℤ), ((c :: s) ++ rest).dropWhile Char.isDigit) := by
      unfold scanDigits
      split
      next heq =>
        split at heq
        · rename_i hminus
          rw [List.cons_append, List.cons.injEq] at hminus
          exact absurd (hminus.1 ▸ hc) (by decide)
        · rename_i hplus
          rw [List.cons_append, List.cons.injEq] at hplus
          exact absurd (hplus.1 ▸ hc) (by decide)
        · cases heq
          simp only [htake]
          rw [if_neg hne, if_neg Bool.false_ne_true, hclamp]
    rw [strtol, hspace, hscan, Option.getD_some, hval]

theorem atoiText_append (h : PortNumeral s n) (hrest : ∀ c ∈ rest.head?, c.isDigit = false) :
    atoiText (s ++ rest) = n := by
  rw [atoiText, strtol_digits_append h hrest, toInt_nat (Nat.le_of_lt h.lt)]

theorem PortNumeral.not_mem (h : PortNumeral s n) (hc : c.isDigit = false) :
    ∀ d ∈ s, ¬ decide (d = c) = true := by
  intro d hd heq
  have hdc : d = c := of_decide_eq_true heq
  have hdigit := h.digits d hd
  rw [hdc, hc] at hdigit
  exact Bool.false_ne_true hdigit

/-! ## One round -/

/-- INTERNAL: Where a character first stands behind a part that does not contain it. -/
theorem findIdx?_append_cons (h : ∀ d ∈ s, ¬ decide (d = c) = true) (rest : List Char) :
    (s ++ c :: rest).findIdx? (· = c) = some s.length := by
  induction s with
  | nil => rw [List.nil_append, List.findIdx?_cons, if_pos (decide_eq_true rfl), List.length_nil]
  | cons d s ih =>
    have hd : d ≠ c := by simpa using h d List.mem_cons_self
    have hs := ih fun e he => h e (List.mem_cons_of_mem _ he)
    rw [List.cons_append, List.findIdx?_cons, hs]
    simp [hd]

theorem findIdx?_none (h : ∀ d ∈ s, ¬ decide (d = c) = true) :
    s.findIdx? (· = c) = none := by
  rw [List.findIdx?_eq_none_iff]
  intro d hd
  simpa using h d hd

/-- INTERNAL: The loop over a range. -/
theorem kniSetRange_spec {b : ℕ} (hb : b < 65536) (fuel a : ℕ) (hfuel : b + 1 - a < fuel)
    (hab : a ≤ b + 1) (bitmap : PortBitmap) :
    ∃ bitmap', kniSetRange fuel a b bitmap = some bitmap' ∧
      HoldsPorts bitmap (List.range' a (b + 1 - a)) bitmap' := by
  induction fuel generalizing a bitmap with
  | zero => exact absurd hfuel (Nat.not_lt_zero _)
  | succ fuel ih =>
    rw [kniSetRange]
    by_cases hle : a ≤ b
    · have hnext : toInt ((a : ℤ) + 1) = ((a + 1 : ℕ) : ℤ) := toInt_nat (n := a + 1) (by omega)
      obtain ⟨bitmap', hrun, hholds⟩ := ih (a + 1) (by omega) (by omega)
        (setBitmap (UInt16.ofNat (toU16 a)) bitmap)
      refine ⟨bitmap', ?_, ?_⟩
      · rw [if_pos (by omega), hnext, hrun]
      · have hlen : b + 1 - a = (b + 1 - (a + 1)) + 1 := by omega
        rw [hlen, List.range'_succ]
        exact (holdsPorts_setBitmap (by omega) bitmap).append hholds
    · refine ⟨bitmap, if_neg (by omega), ?_⟩
      intro p
      have hlen : b + 1 - a = 0 := by omega
      simp [hlen]

/-- INTERNAL: Where the next comma stands. -/
theorem findIdx?_comma (hs : ∀ d ∈ s, ¬ decide (d = ',') = true) (hrest : ∀ c ∈ rest.head?, c = ',') :
    (s ++ rest).findIdx? (· = ',') = if rest = [] then none else some s.length := by
  cases rest with
  | nil => rw [if_pos rfl, List.append_nil, findIdx?_none hs]
  | cons c rest =>
    rw [if_neg (List.cons_ne_nil _ _), hrest c rfl, findIdx?_append_cons hs]

/-- **A round reads one element**: what follows it starts with a comma, if there is
anything. -/
theorem kniSetElement_spec (h : PortElement s l) (rest : List Char) (hrest : ∀ c ∈ rest.head?, c = ',')
    (fuel : ℕ) (hfuel : 65536 < fuel) (bitmap : PortBitmap) :
    ∃ bitmap', kniSetElement fuel (s ++ rest) (if rest = [] then none else some s.length)
        ((s ++ rest).findIdx? (· = '-')) bitmap = some bitmap' ∧ HoldsPorts bitmap l bitmap' := by
  have hstop : ∀ c ∈ rest.head?, c.isDigit = false := by
    intro c hc
    rw [hrest c hc]
    rfl
  cases h with
  | @port _ n h =>
    refine ⟨_, ?_, holdsPorts_setBitmap h.lt bitmap⟩
    rw [kniSetElement.eq_def, atoiText_append h hstop]
    -- a dash, if there is one, stands behind the comma
    cases hdash : (s ++ rest).findIdx? (· = '-') with
    | none => rfl
    | some dash =>
      dsimp only
      rw [List.findIdx?_append, findIdx?_none (h.not_mem (by decide)), Option.none_or,
        Option.map_eq_some_iff] at hdash
      obtain ⟨i, hi, rfl⟩ := hdash
      have hne : rest ≠ [] := by
        rintro rfl
        exact absurd hi (by simp)
      rw [if_neg hne, if_neg]
      simp
      omega
  | @range s t a b hs ht hab =>
    have hdash : (s ++ '-' :: t ++ rest).findIdx? (· = '-') = some s.length := by
      rw [List.append_assoc, List.cons_append, findIdx?_append_cons (hs.not_mem (by decide))]
    have hfirst : atoiText (s ++ '-' :: t ++ rest) = a := by
      rw [List.append_assoc, List.cons_append]
      apply atoiText_append hs
      intro c hc
      rw [← Option.some.inj hc]
      rfl
    have hlast : (s ++ '-' :: t ++ rest).drop (s.length + 1) = t ++ rest := by
      rw [List.append_assoc, List.cons_append, ← List.drop_drop, List.drop_left]
      rfl
    have hpos : 0 < t.length := List.length_pos_of_ne_nil ht.ne_nil
    have hblt := ht.lt
    obtain ⟨bitmap', hrun, hholds⟩ := kniSetRange_spec ht.lt fuel a (by omega) (by omega) bitmap
    refine ⟨bitmap', ?_, hholds⟩
    rw [hdash, kniSetElement, hlast, hfirst, atoiText_append ht hstop]
    by_cases hnil : rest = []
    · simp [hnil, hrun]
    · rw [if_neg hnil]
      simp [hrun, hpos]

/-! ## The list -/

/-- INTERNAL: An element contains no comma. -/
theorem PortElement.no_comma (h : PortElement s l) :
    ∀ d ∈ s, ¬ decide (d = ',') = true := by
  cases h with
  | port h => exact h.not_mem (by decide)
  | range hs ht _ =>
    intro d hd
    rcases List.mem_append.mp hd with hd | hd
    · exact hs.not_mem (by decide) d hd
    · rcases List.mem_cons.mp hd with rfl | hd
      · decide
      · exact ht.not_mem (by decide) d hd

/-- **The loop reads the list**, one element in each round. -/
theorem kniSetLoop_spec {value : List Char} {l : List ℕ} (h : PortList value l) {fuel : ℕ}
    (hfuel : value.length + 65537 < fuel) (bitmap : PortBitmap) :
    ∃ bitmap', kniSetLoop fuel value bitmap = some bitmap' ∧ HoldsPorts bitmap l bitmap' := by
  induction h generalizing fuel bitmap with
  | @last s l h =>
    cases fuel with
    | zero => exact absurd hfuel (Nat.not_lt_zero _)
    | succ fuel =>
      obtain ⟨bitmap', hset, hholds⟩ := kniSetElement_spec h [] (by simp) fuel (by omega) bitmap
      have htail := @findIdx?_comma s [] h.no_comma (by simp)
      rw [List.append_nil] at hset htail
      rw [if_pos rfl] at hset htail
      refine ⟨bitmap', ?_, hholds⟩
      rw [kniSetLoop]
      simp only [htail, hset]
  | @more s rest l ls h _ ih =>
    cases fuel with
    | zero => exact absurd hfuel (Nat.not_lt_zero _)
    | succ fuel =>
      have hcomma : ∀ c ∈ (',' :: rest).head?, c = ',' := by simp
      rw [List.length_append, List.length_cons] at hfuel
      obtain ⟨bitmap', hset, hholds⟩ :=
        kniSetElement_spec h (',' :: rest) hcomma fuel (by omega) bitmap
      obtain ⟨bitmap'', hrun, hrest⟩ := @ih fuel (by omega) bitmap'
      have htail := @findIdx?_comma s (',' :: rest) h.no_comma hcomma
      rw [if_neg (List.cons_ne_nil _ _)] at hset htail
      have hdrop : (s ++ ',' :: rest).drop (s.length + 1) = rest := by
        rw [← List.drop_drop, List.drop_left]
        rfl
      refine ⟨bitmap'', ?_, hholds.append hrest⟩
      rw [kniSetLoop]
      simp only [htail, hset, hdrop, hrun]

/-- **The filter of a port list**: with enough rounds `kni_set_bitmap` comes to an end, and the filter
takes exactly the ports of the list. -/
theorem kni_port_lists {value : List Char} {l : List ℕ} (h : PortList value l) :
    ∃ rounds, ∀ fuel, rounds ≤ fuel →
      ∃ bitmap, kniSetBitmap fuel (some value) (fun _ => 0) = some bitmap ∧
        ∀ p : UInt16, protocolFilterL4 (htons p).toNat bitmap = .kni ↔ p.toNat ∈ l := by
  refine ⟨value.length + 65538, ?_⟩
  intro fuel hfuel
  obtain ⟨bitmap, hrun, hholds⟩ := @kniSetLoop_spec value l h fuel (by omega) fun _ => 0
  refine ⟨bitmap, hrun, ?_⟩
  intro p
  have hzero : ¬ getBitmap (htons p).toNat (fun _ => 0) = true := by
    rw [getBitmap_iff]
    simp
  have hport := hholds p
  rw [or_iff_left hzero] at hport
  rw [← hport, protocolFilterL4]
  split <;> simp_all

/-- A list with a range and a port. -/
theorem kni_port_lists_ssh : ∃ rounds, ∀ fuel, rounds ≤ fuel →
    ∃ bitmap, kniSetBitmap fuel (some ['2', '0', '-', '2', '2', ',', '8', '0']) (fun _ => 0) =
        some bitmap ∧
      ∀ p : UInt16, protocolFilterL4 (htons p).toNat bitmap = .kni ↔ p.toNat ∈ [20, 21, 22, 80] :=
  kni_port_lists (.more (.range (s := ['2', '0']) (t := ['2', '2']) (a := 20) (b := 22)
    ⟨by decide, by simp, by decide, by decide⟩ ⟨by decide, by simp, by decide, by decide⟩
    (by decide)) (.last (.port (n := 80) ⟨by decide, by simp, by decide, by decide⟩)))

end FStack.Analysis
