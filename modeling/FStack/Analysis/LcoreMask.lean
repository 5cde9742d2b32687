import FStack.Analysis.ProcTable
import Mathlib.Data.List.TakeWhile
import Mathlib.Data.Nat.BitIndices
import Mathlib.Data.Nat.Digits.Defs

/-!
# The lcore mask

`parse_lcore_mask` reads a hexadecimal numeral from its last digit on and keeps the positions of the
set bits, in increasing order.  It accepts the numerals of `MaskNumeral` below `2 ^ RTE_MAX_LCORE`
with a bit for the process, and renders that bit as a numeral again (`lcoreMaskFields_denotes`).
-/

set_option autoImplicit false

namespace FStack.Analysis

open FStack.Model

variable {c : Char} {val idx : ℕ} {s : List Char} {vals : List ℕ}
variable {digits : List Char} {n proc_id : ℕ} {m : MaskScan}

/-! ## The numerals that are meant -/

/-- A hexadecimal digit with its value. -/
def HexDigit (c : Char) (val : ℕ) : Prop := xdigit2val c = some val

/-- A hexadecimal numeral with its value. -/
def HexNumeral (digits : List Char) (n : ℕ) : Prop :=
  digits ≠ [] ∧ ∃ vals, List.Forall₂ HexDigit digits vals ∧ Nat.ofDigits 16 vals.reverse = n

/-- A mask: a hexadecimal numeral, with or without `0x`, and blanks around it. -/
def MaskNumeral (coremask : List Char) (n : ℕ) : Prop :=
  ∃ before zx digits after, coremask = before ++ zx ++ digits ++ after ∧
    (∀ c ∈ before, isBlank c = true) ∧ (∀ c ∈ after, isBlank c = true) ∧
    (zx = [] ∨ zx = ['0', 'x'] ∨ zx = ['0', 'X']) ∧ HexNumeral digits n

theorem HexDigit.cases (h : HexDigit c val) :
    (48 ≤ c.toNat ∧ c.toNat ≤ 57 ∧ val = c.toNat - 48) ∨
      (65 ≤ c.toNat ∧ c.toNat ≤ 70 ∧ val = c.toNat - 65 + 10) ∨
      (97 ≤ c.toNat ∧ c.toNat ≤ 102 ∧ val = c.toNat - 97 + 10) := by
  unfold HexDigit xdigit2val at h
  split at h
  next hdigit =>
    simp only [Char.isDigit, Bool.and_eq_true, decide_eq_true_eq] at hdigit
    cases h
    exact .inl ⟨hdigit.1, hdigit.2, rfl⟩
  next =>
    split at h
    next hupper =>
      cases h
      exact .inr (.inl ⟨hupper.1, hupper.2, rfl⟩)
    next =>
      split at h
      next hlower =>
        cases h
        exact .inr (.inr ⟨hlower.1, hlower.2, rfl⟩)
      next => cases h

theorem HexDigit.lt (h : HexDigit c val) : val < 16 := by
  have := h.cases
  omega

theorem HexDigit.eq_zero_iff (h : HexDigit c val) : val = 0 ↔ c = '0' := by
  constructor
  · intro hval
    have hnat : c.toNat = '0'.toNat := by
      have := h.cases
      have : '0'.toNat = 48 := rfl
      omega
    exact Char.toNat_inj.mp hnat
  · rintro rfl
    cases h
    rfl

theorem HexDigit.not_blank (h : HexDigit c val) : isBlank c = false := by
  cases hblank : isBlank c with
  | false => rfl
  | true =>
    simp only [isBlank, Bool.or_eq_true, decide_eq_true_eq] at hblank
    obtain rfl | rfl := hblank <;> cases h

theorem HexDigit.not_x (h : HexDigit c val) : c ≠ 'x' ∧ c ≠ 'X' := by
  constructor <;> rintro rfl <;> cases h

/-! ## The loop over the digits -/

theorem mem_digitCores {i : ℕ} :
    i ∈ digitCores idx val ↔
      idx ≤ i ∧ i < idx + 4 ∧ i < RTE_MAX_LCORE ∧ val.testBit (i - idx) = true := by
  simp only [digitCores, List.mem_filter, List.mem_map, List.mem_range, Bool.and_eq_true,
    decide_eq_true_eq]
  constructor
  · rintro ⟨⟨j, hj, rfl⟩, hlt, hbit⟩
    exact ⟨by omega, by omega, hlt, hbit⟩
  · rintro ⟨hle, hj, hlt, hbit⟩
    exact ⟨⟨i - idx, by omega, by omega⟩, hlt, hbit⟩

theorem ofDigits_testBit (hval : val < 16) (n i : ℕ) :
    (val + 16 * n).testBit i = if i < 4 then val.testBit i else n.testBit (i - 4) := by
  rw [Nat.add_comm]
  exact Nat.testBit_two_pow_mul_add n (i := 4) hval i

/-- Digits behind the last lcore must be zeros. -/
theorem all_zero_iff (h : List.Forall₂ HexDigit s vals) :
    s.all (· = '0') = true ↔ Nat.ofDigits 16 vals = 0 := by
  induction h with
  | nil => simp
  | @cons c val s vals hc _ ih =>
    rw [List.all_cons, Bool.and_eq_true, ih, Nat.ofDigits_cons, decide_eq_true_eq, ← hc.eq_zero_iff]
    omega

/-- What the loop does with hexadecimal digits; `idx` is where their lowest bit stands. -/
theorem maskLoop_hex (h : List.Forall₂ HexDigit s vals) (hidx : 4 ∣ idx) (hle : idx ≤ RTE_MAX_LCORE)
    (cores : List ℕ) :
    (∃ rest, (maskLoop s idx cores).2 = some rest ∧
      (rest.all (· = '0') = true ↔ Nat.ofDigits 16 vals < 2 ^ (RTE_MAX_LCORE - idx))) ∧
    ∀ i, i ∈ (maskLoop s idx cores).1 ↔
      i ∈ cores ∨ (idx ≤ i ∧ i < RTE_MAX_LCORE ∧
        (Nat.ofDigits 16 vals).testBit (i - idx) = true) := by
  induction h generalizing idx cores with
  | nil => exact ⟨⟨[], rfl, by simp⟩, by simp [maskLoop]⟩
  | @cons c val s vals hc hs ih =>
    rw [maskLoop]
    by_cases hlt : idx < RTE_MAX_LCORE
    · have hnext : idx + 4 ≤ RTE_MAX_LCORE := by
        have : RTE_MAX_LCORE = 128 := rfl
        omega
      obtain ⟨⟨rest, hrest, hzero⟩, hmem⟩ :=
        @ih (idx + 4) (by omega) hnext (cores ++ digitCores idx val)
      rw [if_pos hlt, show xdigit2val c = some val from hc]
      dsimp only
      refine ⟨⟨rest, hrest, ?_⟩, fun i => ?_⟩
      · have hpow : 2 ^ (RTE_MAX_LCORE - idx) = 16 * 2 ^ (RTE_MAX_LCORE - (idx + 4)) := by
          rw [show RTE_MAX_LCORE - idx = 4 + (RTE_MAX_LCORE - (idx + 4)) by omega, pow_add]
          rfl
        have := hc.lt
        rw [hzero, hpow, Nat.ofDigits_cons]
        constructor <;> intro h <;> omega
      · rw [hmem, List.mem_append, mem_digitCores, Nat.ofDigits_cons, ofDigits_testBit hc.lt]
        by_cases hi : i < idx + 4
        · by_cases hge : idx ≤ i
          · simp [hi, hge, show i - idx < 4 by omega, show ¬ idx + 4 ≤ i by omega]
          · simp [hge, show ¬ idx + 4 ≤ i by omega]
        · simp [hi, show idx ≤ i by omega, show ¬ i - idx < 4 by omega, show idx + 4 ≤ i by omega,
            show i - (idx + 4) = i - idx - 4 by omega]
    · rw [if_neg hlt]
      have heq : idx = RTE_MAX_LCORE := by omega
      refine ⟨⟨_, rfl, ?_⟩, fun i => ?_⟩
      · rw [all_zero_iff (.cons hc hs), heq, Nat.sub_self]
        omega
      · simp only [heq]
        constructor
        · exact .inl
        · rintro (h | ⟨h₁, h₂, -⟩)
          · exact h
          · omega

theorem hex_of_all_zero (h : s.all (· = '0') = true) :
    ∃ vals, List.Forall₂ HexDigit s vals := by
  induction s with
  | nil => exact ⟨[], .nil⟩
  | cons c s ih =>
    simp only [List.all_cons, Bool.and_eq_true, decide_eq_true_eq] at h
    obtain ⟨vals, hvals⟩ := ih h.2
    exact ⟨0 :: vals, .cons (h.1 ▸ rfl) hvals⟩

/-- A mask with another character in it is not accepted. -/
theorem hex_of_maskLoop {cores rest : List ℕ} {left : List Char}
    (hloop : maskLoop s idx cores = (rest, some left)) (hzero : left.all (· = '0') = true) :
    ∃ vals, List.Forall₂ HexDigit s vals := by
  induction s generalizing idx cores with
  | nil => exact ⟨[], .nil⟩
  | cons c s ih =>
    rw [maskLoop] at hloop
    split at hloop
    · split at hloop
      · cases hloop
      next val hval =>
        obtain ⟨vals, hvals⟩ := ih hloop
        exact ⟨val :: vals, .cons hval hvals⟩
    · cases hloop
      exact hex_of_all_zero hzero

/-! ## Blanks and the prefix -/

theorem dropWhile_isBlank {t : List Char} (hs : ∀ c ∈ s, isBlank c = true)
    (ht : ∀ c, t.head? = some c → isBlank c = false) : (s ++ t).dropWhile isBlank = t := by
  rw [List.dropWhile_append_of_pos hs]
  cases t with
  | nil => rfl
  | cons c t => rw [List.dropWhile_cons, if_neg (by simp [ht c rfl])]

/-- A text is the digits that are left of it, with blanks and the prefix around them. -/
theorem exists_maskDigits (coremask : List Char) :
    ∃ before zx after, coremask = before ++ zx ++ (maskDigits coremask).reverse ++ after ∧
      (∀ c ∈ before, isBlank c = true) ∧ (∀ c ∈ after, isBlank c = true) ∧
      (zx = [] ∨ zx = ['0', 'x'] ∨ zx = ['0', 'X']) := by
  have hafter : ∀ s : List Char, ∃ after, s = (s.reverse.dropWhile isBlank).reverse ++ after ∧
      ∀ c ∈ after, isBlank c = true := fun s => by
    refine ⟨(s.reverse.takeWhile isBlank).reverse, ?_, fun c hc => ?_⟩
    · rw [← List.reverse_append, List.takeWhile_append_dropWhile, List.reverse_reverse]
    · exact List.mem_takeWhile_imp (List.mem_reverse.mp hc)
  have hbefore : ∀ c ∈ coremask.takeWhile isBlank, isBlank c = true := fun c hc =>
    List.mem_takeWhile_imp hc
  have hsplit : coremask = coremask.takeWhile isBlank ++ coremask.dropWhile isBlank :=
    List.takeWhile_append_dropWhile.symm
  unfold maskDigits
  dsimp only
  split
  next t heq =>
    obtain ⟨after, ht, hblank⟩ := hafter t
    refine ⟨_, ['0', 'x'], after, ?_, hbefore, hblank, .inr (.inl rfl)⟩
    rw [heq] at hsplit
    rw [List.append_assoc, ← ht, List.append_assoc]
    exact hsplit
  next t heq =>
    obtain ⟨after, ht, hblank⟩ := hafter t
    refine ⟨_, ['0', 'X'], after, ?_, hbefore, hblank, .inr (.inr rfl)⟩
    rw [heq] at hsplit
    rw [List.append_assoc, ← ht, List.append_assoc]
    exact hsplit
  next =>
    obtain ⟨after, ht, hblank⟩ := hafter (coremask.dropWhile isBlank)
    refine ⟨_, [], after, ?_, hbefore, hblank, .inl rfl⟩
    rw [List.append_assoc, ← ht, List.append_nil]
    exact hsplit

theorem hex_not_blank (h : List.Forall₂ HexDigit digits vals) :
    ∀ c ∈ digits, isBlank c = false ∧ c ≠ 'x' ∧ c ≠ 'X' := by
  induction h with
  | nil => simp
  | cons hc _ ih => exact List.forall_mem_cons.mpr ⟨⟨hc.not_blank, hc.not_x⟩, ih⟩

/-- The digits of a mask are what is left of it. -/
theorem maskDigits_numeral {before zx after : List Char} (hbefore : ∀ c ∈ before, isBlank c = true)
    (hafter : ∀ c ∈ after, isBlank c = true) (hzx : zx = [] ∨ zx = ['0', 'x'] ∨ zx = ['0', 'X'])
    (hne : digits ≠ []) (hhex : List.Forall₂ HexDigit digits vals) :
    maskDigits (before ++ zx ++ digits ++ after) = digits.reverse := by
  have hdigit : ∀ c ∈ digits, isBlank c = false ∧ c ≠ 'x' ∧ c ≠ 'X' := hex_not_blank hhex
  have hend : ((digits ++ after).reverse).dropWhile isBlank = digits.reverse := by
    rw [List.reverse_append, dropWhile_isBlank (fun c hc => hafter c (List.mem_reverse.mp hc))]
    intro c hc
    exact (hdigit c (List.mem_reverse.mp (List.mem_of_mem_head? hc))).1
  have hstart : (before ++ zx ++ digits ++ after).dropWhile isBlank = zx ++ (digits ++ after) := by
    rw [List.append_assoc, List.append_assoc, dropWhile_isBlank hbefore]
    obtain ⟨d, ds, rfl⟩ := List.exists_cons_of_ne_nil hne
    intro c hc
    obtain rfl | rfl | rfl := hzx <;> cases hc
    · exact (hdigit d (by simp)).1
    · rfl
    · rfl
  rw [maskDigits, hstart]
  obtain rfl | rfl | rfl := hzx
  · have hother : ∀ c ∈ digits ++ after, c ≠ 'x' ∧ c ≠ 'X' := fun c hc => by
      obtain hc | hc := List.mem_append.mp hc
      · exact (hdigit c hc).2
      · have := hafter c hc
        constructor <;> rintro rfl <;> cases this
    dsimp only [List.nil_append]
    split
    next t heq => exact absurd rfl (hother 'x' (heq ▸ by simp)).1
    next t heq => exact absurd rfl (hother 'X' (heq ▸ by simp)).2
    next => exact hend
  · exact hend
  · exact hend

/-! ## The process's own lcore -/

theorem toDigits_mul_pow (hn : 0 < n) (q : ℕ) :
    Nat.toDigits 16 (n * 16 ^ q) = Nat.toDigits 16 n ++ List.replicate q '0' := by
  induction q with
  | zero => simp
  | succ q ih =>
    have hpos : 0 < n * 16 ^ q := by positivity
    have hdigit : Nat.toDigits 16 0 = ['0'] := rfl
    rw [List.replicate_succ', ← List.append_assoc, ← ih, ← hdigit,
      Nat.toDigits_append_toDigits (by omega) hpos (by omega)]
    congr 1
    ring

/-- The text is the numeral of the bit. -/
theorem procMaskText_eq (idx : ℕ) : procMaskText idx = Nat.toDigits 16 (2 ^ idx) := by
  have hshift : idx &&& 0x3 = idx % 4 := Nat.and_two_pow_sub_one_eq_mod idx 2
  have hquot : idx >>> 2 = idx / 4 := Nat.shiftRight_eq_div_pow idx 2
  have hpow : 2 ^ idx = 2 ^ (idx % 4) * 16 ^ (idx / 4) := by
    rw [show (16 : ℕ) = 2 ^ 4 by rfl, ← pow_mul, ← pow_add]
    congr 1
    omega
  rw [procMaskText, hshift, hquot, Nat.one_shiftLeft, hpow, toDigits_mul_pow (by positivity)]

/-- `proc_mask` is the text of the process's lcore, as soon as that is found. -/
def MaskText (proc_id : ℕ) (m : MaskScan) : Prop :=
  m.proc_mask = m.proc_lcore[proc_id]?.map procMaskText

theorem bit_eq (hmask : MaskText proc_id m) (hlt : m.idx < RTE_MAX_LCORE) (val j : ℕ) :
    (m.bit proc_id val j).idx = m.idx + 1 ∧
    (m.bit proc_id val j).proc_lcore =
      m.proc_lcore ++ (if val.testBit j then [m.idx] else []) ∧
    MaskText proc_id (m.bit proc_id val j) := by
  unfold MaskText MaskScan.bit at *
  rw [if_pos hlt]
  by_cases hbit : val.testBit j
  · rw [if_pos hbit]
    refine ⟨rfl, by simp [hbit], ?_⟩
    dsimp only
    rcases Nat.lt_trichotomy proc_id m.proc_lcore.length with h | h | h
    · rw [if_neg (by omega), hmask, List.getElem?_append_left h]
    · rw [if_pos (by omega), h]
      simp
    · rw [if_neg (by omega), hmask, List.getElem?_eq_none (by omega),
        List.getElem?_eq_none (by rw [List.length_append]; simp; omega)]
  · rw [if_neg hbit]
    exact ⟨rfl, by simp [hbit], hmask⟩

theorem digitCores_eq (hidx : 4 ∣ idx) (hlt : idx < RTE_MAX_LCORE) (val : ℕ) :
    digitCores idx val =
      (if val.testBit 0 then [idx] else []) ++ (if val.testBit 1 then [idx + 1] else []) ++
        (if val.testBit 2 then [idx + 2] else []) ++
        (if val.testBit 3 then [idx + 3] else []) := by
  have hall : ∀ j < 4, idx + j < RTE_MAX_LCORE := fun j hj => by
    have : RTE_MAX_LCORE = 128 := rfl
    omega
  have hfilter : (List.range 4).filter (fun j => decide (idx + j < RTE_MAX_LCORE) &&
      val.testBit (idx + j - idx)) = (List.range 4).filter val.testBit := by
    refine List.filter_congr fun j hj => ?_
    rw [decide_eq_true (hall j (List.mem_range.mp hj)), Bool.true_and, Nat.add_sub_cancel_left]
  rw [digitCores, List.filter_map]
  dsimp only [Function.comp_def]
  rw [hfilter, show List.range 4 = [0, 1, 2, 3] from rfl]
  simp only [List.filter_cons, List.filter_nil]
  cases val.testBit 0 <;> cases val.testBit 1 <;> cases val.testBit 2 <;>
    cases val.testBit 3 <;> rfl

/-- The four bits of a digit. -/
theorem bits_eq (hmask : MaskText proc_id m) (hidx : 4 ∣ m.idx) (hlt : m.idx < RTE_MAX_LCORE)
    (val : ℕ) :
    ((List.range 4).foldl (MaskScan.bit proc_id val) m).idx = m.idx + 4 ∧
    ((List.range 4).foldl (MaskScan.bit proc_id val) m).proc_lcore =
      m.proc_lcore ++ digitCores m.idx val ∧
    MaskText proc_id ((List.range 4).foldl (MaskScan.bit proc_id val) m) := by
  have hroom : m.idx + 3 < RTE_MAX_LCORE := by
    have : RTE_MAX_LCORE = 128 := rfl
    omega
  obtain ⟨hi₀, hc₀, hm₀⟩ := bit_eq hmask hlt val 0
  obtain ⟨hi₁, hc₁, hm₁⟩ := bit_eq hm₀ (by omega) val 1
  obtain ⟨hi₂, hc₂, hm₂⟩ := bit_eq hm₁ (by omega) val 2
  obtain ⟨hi₃, hc₃, hm₃⟩ := bit_eq hm₂ (by omega) val 3
  have hfold : (List.range 4).foldl (MaskScan.bit proc_id val) m =
      (((m.bit proc_id val 0).bit proc_id val 1).bit proc_id val 2).bit proc_id val 3 := rfl
  rw [hfold, digitCores_eq hidx hlt]
  refine ⟨by omega, ?_, hm₃⟩
  rw [hc₃, hc₂, hc₁, hc₀, hi₂, hi₁, hi₀]
  simp only [List.append_assoc]

/-- The loop keeps the lcores of `maskLoop`, and the text. -/
theorem digits_eq {proc_id : ℕ} (s : List Char) {m : MaskScan} (hmask : MaskText proc_id m)
    (hidx : 4 ∣ m.idx) :
    (m.digits proc_id s).1.proc_lcore = (maskLoop s m.idx m.proc_lcore).1 ∧
    (m.digits proc_id s).2 = (maskLoop s m.idx m.proc_lcore).2 ∧
    MaskText proc_id (m.digits proc_id s).1 := by
  induction s generalizing m with
  | nil => exact ⟨rfl, rfl, hmask⟩
  | cons c s ih =>
    rw [MaskScan.digits, maskLoop]
    by_cases hlt : m.idx < RTE_MAX_LCORE
    · rw [if_pos hlt, if_pos hlt]
      cases hval : xdigit2val c with
      | none => exact ⟨rfl, rfl, hmask⟩
      | some val =>
        obtain ⟨hnext, hcores, hmask'⟩ := bits_eq hmask hidx hlt val
        have hloop := ih hmask' (by omega)
        rw [hnext, hcores] at hloop
        exact hloop
    · rw [if_neg hlt, if_neg hlt]
      exact ⟨rfl, rfl, hmask⟩

/-! ## The parser -/

/-- `parse_lcore_mask` in terms of the loop over the digits. -/
theorem lcoreMaskFields_eq (proc_id : ℕ) (coremask : String) :
    (lcoreMaskFields proc_id coremask).proc_lcore =
      (maskLoop (maskDigits coremask.toList) 0 []).1 ∧
    ((lcoreMaskFields proc_id coremask).ok = true ↔
      maskDigits coremask.toList ≠ [] ∧
      (∃ rest, (maskLoop (maskDigits coremask.toList) 0 []).2 = some rest ∧
        rest.all (· = '0') = true) ∧
      proc_id < (maskLoop (maskDigits coremask.toList) 0 []).1.length) ∧
    ((lcoreMaskFields proc_id coremask).ok = true →
      (lcoreMaskFields proc_id coremask).nb_procs =
        some (maskLoop (maskDigits coremask.toList) 0 []).1.length ∧
      (lcoreMaskFields proc_id coremask).proc_mask =
        ((maskLoop (maskDigits coremask.toList) 0 []).1[proc_id]?).map procMaskText) := by
  obtain ⟨hcores, hrest, hmask⟩ :=
    @digits_eq proc_id (maskDigits coremask.toList) ⟨0, [], none⟩ rfl (by simp)
  rw [← hcores, ← hrest]
  unfold lcoreMaskFields
  by_cases hnil : maskDigits coremask.toList = []
  · simp [hnil, MaskScan.digits]
  · dsimp only
    rw [if_neg hnil]
    cases hscan : MaskScan.digits proc_id (maskDigits coremask.toList) ⟨0, [], none⟩ with
    | mk m left =>
      rw [hscan] at hmask
      cases left with
      | none => simp
      | some rest =>
        by_cases hok : (rest.all (· = '0') && decide ((proc_id : ℤ) < m.proc_lcore.length)) = true
        · dsimp only
          rw [if_pos hok]
          simp only [Bool.and_eq_true, decide_eq_true_eq, Nat.cast_lt] at hok
          exact ⟨rfl, ⟨fun _ => ⟨hnil, ⟨rest, rfl, hok.1⟩, hok.2⟩, fun _ => rfl⟩,
            fun _ => ⟨rfl, hmask⟩⟩
        · dsimp only
          rw [if_neg hok]
          refine ⟨rfl, ⟨nofun, ?_⟩, nofun⟩
          rintro ⟨-, ⟨rest', heq, hzero⟩, hlt⟩
          cases heq
          simp [hzero, hlt] at hok

/-- The lcores and the returned value are those of `parseLcoreMask`. -/
theorem parseLcoreMask_eq (proc_id : ℕ) (coremask : String) :
    parseLcoreMask proc_id coremask =
      ((lcoreMaskFields proc_id coremask).proc_lcore, (lcoreMaskFields proc_id coremask).ok) := by
  obtain ⟨hcores, hok, -⟩ := lcoreMaskFields_eq proc_id coremask
  refine Prod.ext ?_ (Bool.eq_iff_iff.mpr (Iff.trans ?_ hok.symm))
  · rw [parseLcoreMask_fst, hcores]
  · unfold parseLcoreMask
    split
    next heq => simp [heq]
    next heq => simp [heq, and_assoc]

/-- The lcores of an accepted mask. -/
theorem maskLoop_bitIndices (h : List.Forall₂ HexDigit s vals)
    (hlt : Nat.ofDigits 16 vals < 2 ^ RTE_MAX_LCORE) :
    (maskLoop s 0 []).1 = (Nat.ofDigits 16 vals).bitIndices := by
  obtain ⟨-, hmem⟩ := maskLoop_hex h (Nat.dvd_zero 4) (Nat.zero_le _) []
  have hsorted := (maskLoop_cores s 0 [] ⟨by simp, by simp⟩).1
  have hsame : ∀ i, i ∈ (maskLoop s 0 []).1 ↔ i ∈ (Nat.ofDigits 16 vals).bitIndices := fun i => by
    rw [hmem, Nat.mem_bitIndices, Nat.sub_zero]
    constructor
    · rintro (h | ⟨-, -, h⟩)
      · cases h
      · exact h
    · intro hbit
      exact .inr ⟨Nat.zero_le _,
        (Nat.pow_lt_pow_iff_right (by omega)).mp
          ((Nat.ge_two_pow_of_testBit hbit).trans_lt hlt), hbit⟩
  exact List.SortedLT.eq_of_mem_iff hsorted.sortedLT Nat.bitIndices_sorted hsame

theorem maskNumeral_iff {coremask : List Char} :
    MaskNumeral coremask n ↔ maskDigits coremask ≠ [] ∧
      ∃ vals, List.Forall₂ HexDigit (maskDigits coremask) vals ∧ Nat.ofDigits 16 vals = n := by
  constructor
  · rintro ⟨before, zx, digits, after, rfl, hbefore, hafter, hzx, hne, vals, hhex, hn⟩
    rw [maskDigits_numeral hbefore hafter hzx hne hhex]
    exact ⟨by simpa using hne, vals.reverse, List.forall₂_reverse_iff.mpr hhex, hn⟩
  · rintro ⟨hne, vals, hhex, hn⟩
    obtain ⟨before, zx, after, heq, hbefore, hafter, hzx⟩ := exists_maskDigits coremask
    exact ⟨before, zx, _, after, heq, hbefore, hafter, hzx, by simpa using hne, vals.reverse,
      List.forall₂_reverse_iff.mpr hhex, by rw [List.reverse_reverse]; exact hn⟩

/-- `parse_lcore_mask` denotes the mask: it accepts exactly the hexadecimal numerals below
`2 ^ RTE_MAX_LCORE` with more than `proc_id` bits; then `proc_lcore` has the positions of the bits,
`nb_procs` is their number, and `proc_mask` is the numeral of the process's own. -/
theorem lcoreMaskFields_denotes (proc_id : ℕ) (coremask : String) :
    ((lcoreMaskFields proc_id coremask).ok = true ↔
      ∃ n, MaskNumeral coremask.toList n ∧ n < 2 ^ RTE_MAX_LCORE ∧
        proc_id < n.bitIndices.length) ∧
    ∀ n, MaskNumeral coremask.toList n → (lcoreMaskFields proc_id coremask).ok = true →
      (lcoreMaskFields proc_id coremask).proc_lcore = n.bitIndices ∧
      (lcoreMaskFields proc_id coremask).nb_procs = some n.bitIndices.length ∧
      (lcoreMaskFields proc_id coremask).proc_mask =
        n.bitIndices[proc_id]?.map fun lcore => Nat.toDigits 16 (2 ^ lcore) := by
  obtain ⟨hcores, hok, hset⟩ := lcoreMaskFields_eq proc_id coremask
  -- the value and the lcores of an accepted mask
  have haccept : ∀ n, MaskNumeral coremask.toList n → (lcoreMaskFields proc_id coremask).ok = true →
      n < 2 ^ RTE_MAX_LCORE := by
    intro n hn htrue
    obtain ⟨-, vals, hhex, rfl⟩ := maskNumeral_iff.mp hn
    obtain ⟨-, ⟨rest, hrest, hzero⟩, -⟩ := hok.mp htrue
    obtain ⟨⟨rest', hrest', hiff⟩, -⟩ := maskLoop_hex hhex (Nat.dvd_zero 4) (Nat.zero_le _) []
    rw [hrest] at hrest'
    cases hrest'
    exact hiff.mp hzero
  have hbits : ∀ n, MaskNumeral coremask.toList n → n < 2 ^ RTE_MAX_LCORE →
      (maskLoop (maskDigits coremask.toList) 0 []).1 = n.bitIndices := by
    intro n hn hlt
    obtain ⟨-, vals, hhex, rfl⟩ := maskNumeral_iff.mp hn
    exact maskLoop_bitIndices hhex hlt
  refine ⟨⟨fun htrue => ?_, ?_⟩, fun n hn htrue => ?_⟩
  · obtain ⟨hne, ⟨rest, hrest, hzero⟩, hlen⟩ := hok.mp htrue
    obtain ⟨vals, hhex⟩ := hex_of_maskLoop (Prod.ext rfl hrest) hzero
    have hn := maskNumeral_iff.mpr ⟨hne, vals, hhex, rfl⟩
    have hlt := haccept _ hn htrue
    exact ⟨_, hn, hlt, hbits _ hn hlt ▸ hlen⟩
  · rintro ⟨n, hn, hlt, hlen⟩
    obtain ⟨hne, vals, hhex, rfl⟩ := maskNumeral_iff.mp hn
    obtain ⟨⟨rest, hrest, hiff⟩, -⟩ := maskLoop_hex hhex (Nat.dvd_zero 4) (Nat.zero_le _) []
    exact hok.mpr ⟨hne, ⟨rest, hrest, hiff.mpr hlt⟩, by rw [hbits _ hn hlt]; exact hlen⟩
  · obtain ⟨hcount, htext⟩ := hset htrue
    rw [hcores, hcount, htext, hbits n hn (haccept n hn htrue)]
    exact ⟨rfl, rfl, congrArg (Option.map · _) (funext procMaskText_eq)⟩

/-- Two lcores, and the process of the second. -/
example : (lcoreMaskFields 1 " 0x30 ").proc_mask = some ['2', '0'] := by decide

end FStack.Analysis
