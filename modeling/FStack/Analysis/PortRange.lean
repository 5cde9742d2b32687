import FStack.Analysis.RssTableMap
import Mathlib.Order.Interval.Set.Basic

/-!
# Restricting the port table to a range

`ff_rss_tbl_set_portrange` moves an entry's two indices to the first and the last
listed port of a range.  The scan leaves `last_idx` alone when the last listed port is
below the end of the range, because `ff_rss_tbl_init` has set it to the end of the list;
after a call with a narrower range it no longer is there.  A second slip is a range that
contains none of the listed ports: two of its cases select a port all the same.
-/

set_option autoImplicit false

namespace FStack.Analysis

open FStack.Model FStack.Prelude

section Scan

variable {first last num : ℕ} {dport : ℕ → ℕ}

/-- A loop that meets no port from `first` on changes nothing. -/
theorem portRangeScan_of_all_lt (hle : first ≤ last) (fuel k : ℕ) (r : IdxRange)
    (hlt : ∀ c, k ≤ c → c < k + fuel → dport c < first) :
    portRangeScan first last num dport fuel k r = r := by
  induction fuel generalizing k with
  | zero => rfl
  | succ fuel ih =>
    have hk := hlt k (le_refl k) (by omega)
    have hhit : ¬ (r.first_idx = 0 ∧ first ≤ dport k) := by omega
    simp only [portRangeScan, hhit, false_and, if_false]
    rw [if_neg (by omega), if_neg (by omega)]
    apply ih
    intro c hc1 hc2
    exact hlt c (by omega) (by omega)

/-- The loop skips the ports below `first`. -/
theorem portRangeScan_skip (hle : first ≤ last) (d fuel k : ℕ) (r : IdxRange)
    (hlt : ∀ c, k ≤ c → c < k + d → dport c < first) :
    portRangeScan first last num dport (d + fuel) k r =
      portRangeScan first last num dport fuel (k + d) r := by
  induction d generalizing k with
  | zero => rw [Nat.zero_add, Nat.add_zero]
  | succ d ih =>
    have hk := hlt k (le_refl k) (by omega)
    have hhit : ¬ (r.first_idx = 0 ∧ first ≤ dport k) := by omega
    rw [show d + 1 + fuel = d + fuel + 1 by omega]
    simp only [portRangeScan, hhit, false_and, if_false]
    rw [if_neg (by omega), if_neg (by omega), ih (k + 1), show k + 1 + d = k + (d + 1) by omega]
    intro c hc1 hc2
    exact hlt c (by omega) (by omega)

/-- The round that finds the first index, and goes on as if it had been set before. -/
theorem portRangeScan_hit (fuel k : ℕ) (r : IdxRange) (hr : r.first_idx = 0) (hk : k ≠ 0)
    (hge : first ≤ dport k) :
    portRangeScan first last num dport (fuel + 1) k r =
      if dport num < last then { r with first_idx := k }
      else if first = last then { first_idx := k, last_idx := k }
      else portRangeScan first last num dport (fuel + 1) k { r with first_idx := k } := by
  simp only [portRangeScan, hr, hge, hk, true_and, false_and, if_true, if_false]

/-- Once the first index is set the loop looks for the first port from `last` on. -/
theorem portRangeScan_tail (fuel k : ℕ) (r : IdxRange) (hr : r.first_idx ≠ 0)
    (hex : ∃ b, k ≤ b ∧ b < k + fuel ∧ last ≤ dport b) :
    ∃ b, k ≤ b ∧ b < k + fuel ∧ last ≤ dport b ∧ (∀ c, k ≤ c → c < b → dport c < last) ∧
      portRangeScan first last num dport fuel k r =
        { r with last_idx := if dport b = last then b else if 1 < b then b - 1 else b } := by
  induction fuel generalizing k with
  | zero =>
    obtain ⟨b, hb1, hb2, -⟩ := hex
    omega
  | succ fuel ih =>
    have hhit : ¬ (r.first_idx = 0 ∧ first ≤ dport k) := fun h => hr h.1
    simp only [portRangeScan, hhit, false_and, if_false]
    by_cases hk : last ≤ dport k
    · refine ⟨k, le_refl k, by omega, hk, fun c hc1 hc2 => by omega, ?_⟩
      by_cases heq : dport k = last
      · rw [if_pos heq, if_pos heq]
      · rw [if_neg heq, if_neg heq, if_pos (by omega)]
    · rw [if_neg (by omega), if_neg (by omega)]
      obtain ⟨b, hb1, hb2, hb3⟩ := hex
      have hbk : b ≠ k := by
        rintro rfl
        exact hk hb3
      obtain ⟨b', hb1', hb2', hb3', hmin, heq⟩ := ih (k + 1) ⟨b, by omega, by omega, hb3⟩
      refine ⟨b', by omega, by omega, hb3', ?_, heq⟩
      intro c hc1 hc2
      by_cases hck : c = k
      · subst hck
        omega
      · exact hmin c (by omega) hc2

end Scan

section Entry

variable {A : Type} {first last : ℕ}

/-- What a call does to an entry's indices. -/
inductive RangeCase (first last : ℕ) (e : RssDip A) (f l : ℕ) : Prop where
  | noPort (hnone : ∀ c, 1 ≤ c → c ≤ e.num → e.dport c < first) (hf : f = 0) (hl : l = e.last_idx)
  | keepLast (ha : 1 ≤ f ∧ f ≤ e.num) (hge : first ≤ e.dport f)
      (hmin : ∀ c, 1 ≤ c → c < f → e.dport c < first) (hlt : e.dport e.num < last)
      (hl : l = e.last_idx)
  | single (ha : 1 ≤ f ∧ f ≤ e.num) (hge : first ≤ e.dport f)
      (hmin : ∀ c, 1 ≤ c → c < f → e.dport c < first) (hge' : last ≤ e.dport e.num)
      (heq : first = last) (hl : l = f)
  | search (ha : 1 ≤ f ∧ f ≤ e.num) (hge : first ≤ e.dport f)
      (hmin : ∀ c, 1 ≤ c → c < f → e.dport c < first) (hge' : last ≤ e.dport e.num)
      (hlt : first < last) (b : ℕ) (hb : f ≤ b ∧ b ≤ e.num) (hbge : last ≤ e.dport b)
      (hbmin : ∀ c, f ≤ c → c < b → e.dport c < last)
      (hl : l = if e.dport b = last then b else if 1 < b then b - 1 else b)

/-- Every call falls under one of the cases.
SOURCE: lib/ff_dpdk_if.c:2821-2847 -/
theorem setDipRange_cases (hle : first ≤ last) (e : RssDip A) :
    RangeCase first last e (setDipRange first last e).first_idx
      (setDipRange first last e).last_idx := by
  unfold setDipRange
  by_cases hex : ∃ a, 1 ≤ a ∧ a ≤ e.num ∧ first ≤ e.dport a
  swap
  · push Not at hex
    rw [portRangeScan_of_all_lt hle e.num 1 _ (fun c h1 h2 => hex c h1 (by omega))]
    exact .noPort hex rfl rfl
  classical
  -- the first port of the list that is not below the range
  obtain ⟨a, ⟨ha1, ha2, hge⟩, hleast⟩ : ∃ a, (1 ≤ a ∧ a ≤ e.num ∧ first ≤ e.dport a) ∧
      ∀ c, c < a → ¬ (1 ≤ c ∧ c ≤ e.num ∧ first ≤ e.dport c) :=
    ⟨Nat.find hex, Nat.find_spec hex, fun c hc => Nat.find_min hex hc⟩
  have hmin : ∀ c, 1 ≤ c → c < a → e.dport c < first := by
    intro c hc1 hc2
    have := hleast c hc2
    omega
  have hskip := @portRangeScan_skip first last e.num e.dport hle (a - 1) (e.num - a + 1) 1
    ⟨0, e.last_idx⟩ (fun c h1 h2 => hmin c h1 (by omega))
  rw [show a - 1 + (e.num - a + 1) = e.num by omega, show 1 + (a - 1) = a by omega] at hskip
  rw [hskip]
  rw [portRangeScan_hit (e.num - a) a _ rfl (by omega) hge]
  by_cases hlast : e.dport e.num < last
  · rw [if_pos hlast]
    exact .keepLast ⟨ha1, ha2⟩ hge hmin hlast rfl
  rw [if_neg hlast]
  by_cases heq : first = last
  · rw [if_pos heq]
    exact .single ⟨ha1, ha2⟩ hge hmin (by omega) heq rfl
  rw [if_neg heq]
  obtain ⟨b, hb1, hb2, hbge, hbmin, hscan⟩ :=
    @portRangeScan_tail first last e.num e.dport (e.num - a + 1) a ⟨a, e.last_idx⟩
      (by simp only; omega) ⟨e.num, ha2, by omega, Nat.le_of_not_lt hlast⟩
  rw [hscan]
  exact .search ⟨ha1, ha2⟩ hge hmin (by omega) (by omega) b ⟨hb1, by omega⟩ hbge hbmin rfl

/-- The entry's ports, `dport[1..num]`, are strictly increasing, and `last_idx` is the index of
one of them or 0. -/
structure WellListed (e : RssDip A) : Prop where
  sorted : StrictMonoOn e.dport (Set.Icc 1 e.num)
  last_le : e.last_idx ≤ e.num

/-- `{ dport[k] | first_idx <= k <= last_idx }` is the set of the entry's ports in the range. -/
def ExactRange (first last : ℕ) (e : RssDip A) : Prop :=
  {p | ∃ k, e.first_idx ≤ k ∧ k ≤ e.last_idx ∧ e.dport k = p} =
    {p | (∃ k, 1 ≤ k ∧ k ≤ e.num ∧ e.dport k = p) ∧ first ≤ p ∧ p ≤ last}

/-- Before the call: one of the entry's ports is in the range, and if the range ends above the
last of them the whole list is selected. -/
def RangeReady (first last : ℕ) (e : RssDip A) : Prop :=
  (∃ k, 1 ≤ k ∧ k ≤ e.num ∧ first ≤ e.dport k ∧ e.dport k ≤ last) ∧
    (e.dport e.num < last → e.last_idx = e.num)

/-- `e'` has the list of `e`, and its first index is that of the first port not below the range. -/
structure StartsRange (first : ℕ) (e e' : RssDip A) : Prop where
  num_eq : e'.num = e.num
  dport_eq : e'.dport = e.dport
  pos : 1 ≤ e'.first_idx
  le_num : e'.first_idx ≤ e.num
  ge : first ≤ e.dport e'.first_idx
  least : ∀ c, 1 ≤ c → c < e'.first_idx → e.dport c < first

/-- In an increasing list the first index delimits the range from below. -/
theorem StartsRange.first_le_iff {e e' : RssDip A} (h : StartsRange first e e') (he : WellListed e)
    {k : ℕ} (h1 : 1 ≤ k) (h2 : k ≤ e.num) : e'.first_idx ≤ k ↔ first ≤ e.dport k := by
  have hge := h.ge
  constructor
  · intro hfk
    have := (he.sorted.le_iff_le ⟨h.pos, h.le_num⟩ ⟨h1, h2⟩).mpr hfk
    omega
  · intro hk
    by_contra hlt
    have := h.least k h1 (by omega)
    omega

/-- If the last index delimits it from above the range is selected. -/
theorem StartsRange.exactRange {e e' : RssDip A} (h : StartsRange first e e') (he : WellListed e)
    (hl : e'.last_idx ≤ e.num)
    (hlast : ∀ k, 1 ≤ k → k ≤ e.num → (k ≤ e'.last_idx ↔ e.dport k ≤ last)) :
    ExactRange first last e' := by
  have hpos := h.pos
  rw [ExactRange, h.num_eq, h.dport_eq]
  ext p
  constructor
  · rintro ⟨k, hk1, hk2, rfl⟩
    have h1 : 1 ≤ k := by omega
    have h2 : k ≤ e.num := by omega
    exact ⟨⟨k, h1, h2, rfl⟩, (h.first_le_iff he h1 h2).mp hk1, (hlast k h1 h2).mp hk2⟩
  · rintro ⟨⟨k, h1, h2, rfl⟩, hp1, hp2⟩
    exact ⟨k, (h.first_le_iff he h1 h2).mpr hp1, (hlast k h1 h2).mpr hp2, rfl⟩

/-- The port at the first index is selected, so in an exact range it is in the range. -/
theorem StartsRange.exists_port {e e' : RssDip A} (h : StartsRange first e e')
    (hex : ExactRange first last e') (hok : e'.first_idx ≤ e'.last_idx) :
    ∃ k, 1 ≤ k ∧ k ≤ e.num ∧ first ≤ e.dport k ∧ e.dport k ≤ last := by
  have hmem : e.dport e'.first_idx ∈
      {p | ∃ k, e'.first_idx ≤ k ∧ k ≤ e'.last_idx ∧ e'.dport k = p} :=
    ⟨e'.first_idx, le_refl _, hok, by rw [h.dport_eq]⟩
  rw [hex] at hmem
  exact ⟨e'.first_idx, h.pos, h.le_num, h.ge, hmem.2.2⟩

/-- A range that ends above the list, with the last index as it was. -/
theorem StartsRange.exactRange_of_keepLast {e e' : RssDip A} (h : StartsRange first e e')
    (he : WellListed e) (hlt : e.dport e.num < last) (hl : e'.last_idx = e.last_idx) :
    ExactRange first last e' ↔ RangeReady first last e := by
  have hpos := h.pos
  have hle := h.le_num
  have hlast := he.last_le
  have hmax : ∀ k, 1 ≤ k → k ≤ e.num → e.dport k ≤ last := by
    intro k h1 h2
    have := (he.sorted.le_iff_le ⟨h1, h2⟩ ⟨by omega, le_refl _⟩).mpr h2
    omega
  constructor
  · intro hex
    refine ⟨⟨_, hpos, hle, h.ge, hmax _ hpos hle⟩, fun _ => ?_⟩
    -- the last listed port is in the range, so its index is selected
    have hmem : e.dport e.num ∈ {p | (∃ k, 1 ≤ k ∧ k ≤ e'.num ∧ e'.dport k = p) ∧
        first ≤ p ∧ p ≤ last} := by
      rw [h.num_eq, h.dport_eq]
      exact ⟨⟨e.num, by omega, le_refl _, rfl⟩, (h.first_le_iff he (by omega) (le_refl _)).mp hle,
        Nat.le_of_lt hlt⟩
    rw [← hex] at hmem
    obtain ⟨k, hk1, hk2, hk⟩ := hmem
    rw [h.dport_eq] at hk
    have hkn : k = e.num := he.sorted.injOn ⟨by omega, by omega⟩ ⟨by omega, le_refl _⟩ hk
    omega
  · rintro ⟨-, hfull⟩
    have hnum := hfull hlt
    apply h.exactRange he (by omega)
    intro k h1 h2
    exact iff_of_true (by omega) (hmax k h1 h2)

/-- A range of one port.  It is selected if the port is listed. -/
theorem StartsRange.exactRange_of_single {e e' : RssDip A} (h : StartsRange first e e')
    (he : WellListed e) (heq : first = last) (hl : e'.last_idx = e'.first_idx)
    (hready : RangeReady first last e) : ExactRange first last e' := by
  obtain ⟨⟨k, hk1, hk2, hk3, hk4⟩, -⟩ := hready
  have hge := h.ge
  have hfk := (h.first_le_iff he hk1 hk2).mpr hk3
  have hmono := (he.sorted.le_iff_le ⟨h.pos, h.le_num⟩ ⟨hk1, hk2⟩).mpr hfk
  have hport : e.dport e'.first_idx = last := by omega
  apply h.exactRange he
  · rw [hl]
    exact h.le_num
  · intro k h1 h2
    rw [hl, ← hport]
    exact (he.sorted.le_iff_le ⟨h1, h2⟩ ⟨h.pos, h.le_num⟩).symm

/-- The search for the last index, which has stopped at `b`.  If a port is in the range
it has passed one. -/
theorem StartsRange.exactRange_of_search {e e' : RssDip A} (h : StartsRange first e e')
    (he : WellListed e) {b : ℕ} (hb : e'.first_idx ≤ b ∧ b ≤ e.num) (hbge : last ≤ e.dport b)
    (hbmin : ∀ c, e'.first_idx ≤ c → c < b → e.dport c < last)
    (hl : e'.last_idx = if e.dport b = last then b else if 1 < b then b - 1 else b)
    (hready : RangeReady first last e) : ExactRange first last e' := by
  obtain ⟨⟨k, hk1, hk2, hk3, hk4⟩, -⟩ := hready
  have hpos := h.pos
  have hb1 : 1 ≤ b := by omega
  by_cases heq : e.dport b = last
  · rw [if_pos heq] at hl
    apply h.exactRange he (by omega)
    intro k h1 h2
    rw [hl, ← heq]
    exact (he.sorted.le_iff_le ⟨h1, h2⟩ ⟨hb1, hb.2⟩).symm
  · have hfk := (h.first_le_iff he hk1 hk2).mpr hk3
    have hkb : k < b := by
      by_contra hge
      have := (he.sorted.le_iff_le ⟨hb1, hb.2⟩ ⟨hk1, hk2⟩).mpr (by omega)
      omega
    rw [if_neg heq, if_pos (by omega)] at hl
    apply h.exactRange he (by omega)
    intro c h1 h2
    constructor
    · intro hc
      have hmono := (he.sorted.le_iff_le ⟨h1, h2⟩ ⟨by omega, by omega⟩).mpr
        (show c ≤ b - 1 by omega)
      have := hbmin (b - 1) (by omega) (by omega)
      omega
    · intro hc
      by_contra hgt
      have := (he.sorted.le_iff_le ⟨hb1, hb.2⟩ ⟨h1, h2⟩).mpr (by omega)
      omega

/-- A call that succeeds selects the range exactly if the entry was ready for it.
SOURCE: lib/ff_dpdk_if.c:2821-2853 -/
theorem setDipRange_exact_iff (hle : first ≤ last) {e : RssDip A} (he : WellListed e)
    (hpos : (setDipRange first last e).first_idx ≠ 0)
    (hok : (setDipRange first last e).first_idx ≤ (setDipRange first last e).last_idx) :
    ExactRange first last (setDipRange first last e) ↔ RangeReady first last e := by
  have hcases := setDipRange_cases hle e
  have hnum : (setDipRange first last e).num = e.num := rfl
  have hdport : (setDipRange first last e).dport = e.dport := rfl
  generalize setDipRange first last e = e' at hcases hpos hok hnum hdport ⊢
  cases hcases with
  | noPort hnone hf hl => exact absurd hf hpos
  | keepLast ha hge hmin hlt hl =>
    have hstart : StartsRange first e e' := ⟨hnum, hdport, ha.1, ha.2, hge, hmin⟩
    exact hstart.exactRange_of_keepLast he hlt hl
  | single ha hge hmin hge' heq hl =>
    have hstart : StartsRange first e e' := ⟨hnum, hdport, ha.1, ha.2, hge, hmin⟩
    constructor
    · intro hex
      exact ⟨hstart.exists_port hex hok, fun hlt => by omega⟩
    · exact hstart.exactRange_of_single he heq hl
  | search ha hge hmin hge' hlt b hb hbge hbmin hl =>
    have hstart : StartsRange first e e' := ⟨hnum, hdport, ha.1, ha.2, hge, hmin⟩
    constructor
    · intro hex
      exact ⟨hstart.exists_port hex hok, fun hlt' => by omega⟩
    · exact hstart.exactRange_of_search he hb hbge hbmin hl

/-- A call leaves `last_idx` within the list. -/
theorem WellListed.setDipRange (hle : first ≤ last) {e : RssDip A} (he : WellListed e) :
    WellListed (setDipRange first last e) := by
  refine ⟨he.sorted, ?_⟩
  have hcases := setDipRange_cases hle e
  have hnum : (Model.setDipRange first last e).num = e.num := rfl
  have hlast := he.last_le
  cases hcases with
  | noPort hnone hf hl => omega
  | keepLast ha hge hmin hlt hl => omega
  | single ha hge hmin hge' heq hl => omega
  | search ha hge hmin hge' hlt b hb hbge hbmin hl =>
    rw [hnum, hl]
    split
    · omega
    · split <;> omega

end Entry

section Table

variable {A : Type} (fam : RssFamily A) {first last : ℕ}

/-- Entry `j` of slot `i` is in use. -/
def InUse (t : RssTbl A) (i : Fin 16) (j : Fin 4) : Prop :=
  fam.isAny (t i).saddr = false ∧ fam.isAny ((t i).dip_tbl j).daddr = false

/-- The two tables have the same slots, and an entry of the second is that of the first or what a
call made of it. -/
def RangeStep (first last : ℕ) (t t' : RssTbl A) : Prop :=
  (∀ i, (t' i).saddr = (t i).saddr ∧ (t' i).sport = (t i).sport) ∧
    ∀ i j, (t' i).dip_tbl j = (t i).dip_tbl j ∨
      (t' i).dip_tbl j = setDipRange first last ((t i).dip_tbl j)

theorem inUse_congr {t t' : RssTbl A} (h : RangeStep first last t t') (i : Fin 16) (j : Fin 4) :
    InUse fam t' i j ↔ InUse fam t i j := by
  have hd : ((t' i).dip_tbl j).daddr = ((t i).dip_tbl j).daddr := by
    rcases h.2 i j with heq | heq
    · rw [heq]
    · rw [heq]
      rfl
  rw [InUse, InUse, (h.1 i).1, hd]

theorem setDip_saddr_sport (t : RssTbl A) (i : Fin 16) (j : Fin 4) (e : RssDip A) (i' : Fin 16) :
    (setDip t i j e i').saddr = (t i').saddr ∧ (setDip t i j e i').sport = (t i').sport := by
  by_cases hi : i' = i
  · subst hi
    simp [setDip]
  · simp [setDip, Function.update_of_ne hi]

theorem setDip_self (t : RssTbl A) (i : Fin 16) (j : Fin 4) (e : RssDip A) :
    (setDip t i j e i).dip_tbl j = e := by
  simp [setDip]

theorem setDip_of_ne (t : RssTbl A) {i i' : Fin 16} {j j' : Fin 4} (e : RssDip A)
    (hne : (i', j') ≠ (i, j)) : (setDip t i j e i').dip_tbl j' = (t i').dip_tbl j' := by
  by_cases hi : i' = i
  · subst hi
    have hj : j' ≠ j := by
      rintro rfl
      exact hne rfl
    simp [setDip, Function.update_of_ne hj]
  · simp [setDip, Function.update_of_ne hi]

theorem RangeStep.refl (t : RssTbl A) : RangeStep first last t t :=
  ⟨fun _ => ⟨rfl, rfl⟩, fun _ _ => .inl rfl⟩

theorem rangeStep_setDip (t : RssTbl A) (i : Fin 16) (j : Fin 4) :
    RangeStep first last t (setDip t i j (setDipRange first last ((t i).dip_tbl j))) := by
  refine ⟨setDip_saddr_sport t i j _, ?_⟩
  intro i' j'
  by_cases heq : (i', j') = (i, j)
  · cases heq
    right
    rw [setDip_self]
  · left
    rw [setDip_of_ne _ _ heq]

/-- The range of an entry is accepted. -/
def RangeOk (first last : ℕ) (e : RssDip A) : Prop :=
  (setDipRange first last e).first_idx ≠ 0 ∧
    (setDipRange first last e).first_idx ≤ (setDipRange first last e).last_idx

/-- The three ways in which a round of the loop over the entries goes: a free entry is
skipped, an entry without a range ends the loop, and any other is changed.
SOURCE: lib/ff_dpdk_if.c:2811-2855 -/
theorem setPortrangeLoop_cons (first last : ℕ) (i : Fin 16) (j : Fin 4)
    (l : List (Fin 16 × Fin 4)) (t : RssTbl A) :
    ¬ InUse fam t i j ∧ setPortrangeLoop fam first last ((i, j) :: l) t =
        setPortrangeLoop fam first last l t ∨
    (InUse fam t i j ∧ ¬ RangeOk first last ((t i).dip_tbl j)) ∧
      setPortrangeLoop fam first last ((i, j) :: l) t =
        (setDip t i j (setDipRange first last ((t i).dip_tbl j)), -1) ∨
    (InUse fam t i j ∧ RangeOk first last ((t i).dip_tbl j)) ∧
      setPortrangeLoop fam first last ((i, j) :: l) t =
        setPortrangeLoop fam first last l
          (setDip t i j (setDipRange first last ((t i).dip_tbl j))) := by
  rw [setPortrangeLoop]
  by_cases hany : (fam.isAny (t i).saddr || fam.isAny ((t i).dip_tbl j).daddr) = true
  · left
    refine ⟨?_, if_pos hany⟩
    rintro ⟨h1, h2⟩
    rw [h1, h2] at hany
    cases hany
  · right
    have huse : InUse fam t i j := by
      rw [Bool.not_eq_true, Bool.or_eq_false_iff] at hany
      exact hany
    rw [if_neg hany]
    dsimp only
    by_cases hbad : (setDipRange first last ((t i).dip_tbl j)).first_idx = 0 ∨
        (setDipRange first last ((t i).dip_tbl j)).last_idx <
          (setDipRange first last ((t i).dip_tbl j)).first_idx
    · left
      refine ⟨⟨huse, ?_⟩, if_pos hbad⟩
      rintro ⟨hpos, hle⟩
      omega
    · right
      exact ⟨⟨huse, by constructor <;> omega⟩, if_neg hbad⟩

/-- The loop changes entries of its list only, each at most once.
SOURCE: lib/ff_dpdk_if.c:2811-2855 -/
theorem setPortrangeLoop_step (l : List (Fin 16 × Fin 4)) (hnd : l.Nodup) (t : RssTbl A) :
    RangeStep first last t (setPortrangeLoop fam first last l t).1 ∧
      ∀ i j, (i, j) ∉ l →
        ((setPortrangeLoop fam first last l t).1 i).dip_tbl j = (t i).dip_tbl j := by
  induction l generalizing t with
  | nil => exact ⟨RangeStep.refl t, fun i j _ => rfl⟩
  | cons ij l ih =>
    obtain ⟨i₀, j₀⟩ := ij
    obtain ⟨hnot, hnd'⟩ := List.nodup_cons.mp hnd
    have hset := @rangeStep_setDip A first last t i₀ j₀
    have hother : ∀ i j, (i, j) ∉ (i₀, j₀) :: l →
        (setDip t i₀ j₀ (setDipRange first last ((t i₀).dip_tbl j₀)) i).dip_tbl j =
          (t i).dip_tbl j := by
      intro i j hij
      exact setDip_of_ne _ _ (fun heq => hij (heq ▸ List.mem_cons_self))
    rcases setPortrangeLoop_cons fam first last i₀ j₀ l t with ⟨-, heq⟩ | ⟨-, heq⟩ | ⟨-, heq⟩
    · obtain ⟨hstep, hout⟩ := ih hnd' t
      rw [heq]
      exact ⟨hstep, fun i j hij => hout i j (fun h => hij (List.mem_cons_of_mem _ h))⟩
    · rw [heq]
      exact ⟨hset, hother⟩
    · obtain ⟨hstep, hout⟩ := ih hnd' (setDip t i₀ j₀ (setDipRange first last ((t i₀).dip_tbl j₀)))
      rw [heq]
      refine ⟨⟨?_, ?_⟩, ?_⟩
      · intro i
        exact ⟨(hstep.1 i).1.trans (hset.1 i).1, (hstep.1 i).2.trans (hset.1 i).2⟩
      · intro i j
        by_cases heq : (i, j) = (i₀, j₀)
        · cases heq
          right
          rw [hout i₀ j₀ hnot, setDip_self]
        · have := hstep.2 i j
          rwa [setDip_of_ne t (setDipRange first last ((t i₀).dip_tbl j₀)) heq] at this
      · intro i j hij
        rw [hout i j (fun h => hij (List.mem_cons_of_mem _ h))]
        exact hother i j hij

/-- The loop ends without error exactly if each entry in use has a range, and it has then
changed each of them.
SOURCE: lib/ff_dpdk_if.c:2811-2855 -/
theorem setPortrangeLoop_spec (l : List (Fin 16 × Fin 4)) (hnd : l.Nodup) (t : RssTbl A) :
    ((setPortrangeLoop fam first last l t).2 = 0 ↔ ∀ i j, (i, j) ∈ l → InUse fam t i j →
        RangeOk first last ((t i).dip_tbl j)) ∧
      ((setPortrangeLoop fam first last l t).2 = 0 → ∀ i j, (i, j) ∈ l → InUse fam t i j →
        ((setPortrangeLoop fam first last l t).1 i).dip_tbl j =
          setDipRange first last ((t i).dip_tbl j)) := by
  induction l generalizing t with
  | nil => simp [setPortrangeLoop]
  | cons ij l ih =>
    obtain ⟨i₀, j₀⟩ := ij
    obtain ⟨hnot, hnd'⟩ := List.nodup_cons.mp hnd
    rcases setPortrangeLoop_cons fam first last i₀ j₀ l t with
      ⟨hfree, heq⟩ | ⟨⟨huse₀, hbad⟩, heq⟩ | ⟨⟨huse₀, hok⟩, heq⟩
    · obtain ⟨hret, hdone⟩ := ih hnd' t
      have hmem : ∀ i j, (i, j) ∈ (i₀, j₀) :: l → InUse fam t i j → (i, j) ∈ l := by
        intro i j hij huse
        rcases List.mem_cons.mp hij with heq | hmem
        · cases heq
          exact absurd huse hfree
        · exact hmem
      rw [heq]
      refine ⟨?_, fun h i j hij huse => hdone h i j (hmem i j hij huse) huse⟩
      rw [hret]
      exact ⟨fun h i j hij huse => h i j (hmem i j hij huse) huse,
        fun h i j hij => h i j (List.mem_cons_of_mem _ hij)⟩
    · have hne : ¬ (-1 : ℤ) = 0 := by decide
      rw [heq]
      refine ⟨iff_of_false hne ?_, fun h => absurd h hne⟩
      intro h
      exact hbad (h i₀ j₀ List.mem_cons_self huse₀)
    · obtain ⟨hret, hdone⟩ := ih hnd' (setDip t i₀ j₀ (setDipRange first last ((t i₀).dip_tbl j₀)))
      have hset := @rangeStep_setDip A first last t i₀ j₀
      have hsame : ∀ i j, (i, j) ∈ l →
          (setDip t i₀ j₀ (setDipRange first last ((t i₀).dip_tbl j₀)) i).dip_tbl j =
            (t i).dip_tbl j := by
        intro i j hij
        apply setDip_of_ne
        rintro heq
        cases heq
        exact hnot hij
      rw [heq]
      refine ⟨?_, ?_⟩
      · rw [hret]
        constructor
        · intro h i j hij huse
          rcases List.mem_cons.mp hij with heq | hmem
          · cases heq
            exact hok
          · have := h i j hmem ((inUse_congr fam hset i j).mpr huse)
            rwa [hsame i j hmem] at this
        · intro h i j hij huse
          rw [hsame i j hij]
          exact h i j (List.mem_cons_of_mem _ hij) ((inUse_congr fam hset i j).mp huse)
      · intro h i j hij huse
        rcases List.mem_cons.mp hij with heq | hmem
        · cases heq
          rw [(setPortrangeLoop_step fam l hnd' _).2 i₀ j₀ hnot, setDip_self]
        · rw [hdone h i j hmem ((inUse_congr fam hset i j).mpr huse), hsame i j hmem]

/-- Every entry in use is well listed. -/
def TblWell (t : RssTbl A) : Prop := ∀ i j, InUse fam t i j → WellListed ((t i).dip_tbl j)

theorem tblIndices_nodup : tblIndices.Nodup := by
  rw [tblIndices, List.nodup_flatMap]
  refine ⟨?_, ?_⟩
  · intro i _
    apply (List.nodup_finRange 4).map
    intro j j' h
    exact (Prod.mk.inj h).2
  · apply List.Pairwise.imp _ (List.nodup_finRange 16)
    intro i i' hne
    apply List.disjoint_left.mpr
    intro p hp hp'
    obtain ⟨j, -, rfl⟩ := List.mem_map.mp hp
    obtain ⟨j', -, h⟩ := List.mem_map.mp hp'
    exact hne (Prod.mk.inj h).1.symm

theorem mem_tblIndices (i : Fin 16) (j : Fin 4) : (i, j) ∈ tblIndices := by
  rw [tblIndices, List.mem_flatMap]
  exact ⟨i, List.mem_finRange i, List.mem_map_of_mem (List.mem_finRange j)⟩

/-- A call changes nothing, or it is a step with a proper range. -/
theorem rssTblSetPortrange_step (enable : Bool) (t : RssTbl A) (first last : ℕ) :
    (rssTblSetPortrange fam enable t first last).1 = t ∧
        (rssTblSetPortrange fam enable t first last).2 ≠ 0 ∨
      first ≤ last ∧ RangeStep first last t (rssTblSetPortrange fam enable t first last).1 := by
  unfold rssTblSetPortrange
  by_cases hc : last < first ∨ enable = false
  · left
    rw [if_pos hc]
    exact ⟨rfl, by simp⟩
  · right
    rw [if_neg hc]
    exact ⟨by omega, (setPortrangeLoop_step fam tblIndices tblIndices_nodup t).1⟩

theorem setPortrangeLoop_ret (l : List (Fin 16 × Fin 4)) (t : RssTbl A) :
    (setPortrangeLoop fam first last l t).2 = 0 ∨ (setPortrangeLoop fam first last l t).2 = -1 := by
  induction l generalizing t with
  | nil => exact .inl rfl
  | cons ij l ih =>
    obtain ⟨i, j⟩ := ij
    simp only [setPortrangeLoop]
    split
    · exact ih t
    · split
      · exact .inr rfl
      · exact ih _

theorem rssTblSetPortrange_ret (enable : Bool) (t : RssTbl A) (first last : ℕ) :
    (rssTblSetPortrange fam enable t first last).2 = 0 ∨
      (rssTblSetPortrange fam enable t first last).2 = -1 := by
  unfold rssTblSetPortrange
  split
  · exact .inr rfl
  · exact setPortrangeLoop_ret fam tblIndices t

/-- The return value 0 and what it says about the entries. -/
theorem rssTblSetPortrange_ret_zero_iff (t : RssTbl A) (hle : first ≤ last) :
    (rssTblSetPortrange fam true t first last).2 = 0 ↔ ∀ i j, InUse fam t i j →
      RangeOk first last ((t i).dip_tbl j) := by
  rw [rssTblSetPortrange, if_neg (by simp; omega)]
  rw [(setPortrangeLoop_spec fam tblIndices tblIndices_nodup t).1]
  constructor
  · intro h i j
    exact h i j (mem_tblIndices i j)
  · intro h i j _
    exact h i j

/-- A call that returns 0 was made with a proper range, and changed every entry in
use. -/
theorem rssTblSetPortrange_of_ret_zero {enable : Bool} {t : RssTbl A}
    (h : (rssTblSetPortrange fam enable t first last).2 = 0) :
    enable = true ∧ first ≤ last ∧ ∀ i j, InUse fam t i j →
      ((rssTblSetPortrange fam enable t first last).1 i).dip_tbl j =
        setDipRange first last ((t i).dip_tbl j) := by
  unfold rssTblSetPortrange at h ⊢
  by_cases hc : last < first ∨ enable = false
  · rw [if_pos hc] at h
    exact absurd h (by simp)
  · rw [if_neg hc] at h ⊢
    refine ⟨by simpa using fun h => hc (.inr h), by omega, fun i j => ?_⟩
    exact (setPortrangeLoop_spec fam tblIndices tblIndices_nodup t).2 h i j (mem_tblIndices i j)

theorem TblWell.setPortrange {t : RssTbl A} (hw : TblWell fam t) (enable : Bool)
    (first last : ℕ) : TblWell fam (rssTblSetPortrange fam enable t first last).1 := by
  rcases rssTblSetPortrange_step fam enable t first last with ⟨heq, -⟩ | ⟨hle, hstep⟩
  · rw [heq]
    exact hw
  · intro i j huse
    have huse' := (inUse_congr fam hstep i j).mp huse
    rcases hstep.2 i j with heq | heq
    · rw [heq]
      exact hw i j huse'
    · rw [heq]
      exact (hw i j huse').setDipRange hle

/-- The table after a sequence of calls. -/
def runPortranges (enable : Bool) (t : RssTbl A) (calls : List (ℕ × ℕ)) : RssTbl A :=
  calls.foldl (fun t c => (rssTblSetPortrange fam enable t c.1 c.2).1) t

theorem TblWell.run {t : RssTbl A} (hw : TblWell fam t) (enable : Bool) (calls : List (ℕ × ℕ)) :
    TblWell fam (runPortranges fam enable t calls) := by
  induction calls generalizing t with
  | nil => exact hw
  | cons c calls ih => exact ih (hw.setPortrange fam enable c.1 c.2)

/-- An entry in use of a new table holds the list of an inserted tuple. -/
theorem TblInv.holds_of_inUse [DecidableEq A] {t : RssTbl A} {ins : List (RssTuple A)}
    (h : TblInv fam t ins) {i : Fin 16} {j : Fin 4} (huse : InUse fam t i j) :
    ∃ c ∈ ins, (c.saddr = (t i).saddr ∧ c.daddr = ((t i).dip_tbl j).daddr ∧ c.sport = (t i).sport) ∧
      HoldsTuple fam ((t i).dip_tbl j) c := by
  obtain ⟨hs, hd⟩ := huse
  have hslot : slotKey fam (t i) = some ((t i).saddr, (t i).sport) := by simp [slotKey, hs]
  have hdip : dipKey fam ((t i).dip_tbl j) = some ((t i).dip_tbl j).daddr := by simp [dipKey, hd]
  obtain ⟨c, hc, hkey, hdaddr⟩ := h.listed i j _ _ hslot hdip
  obtain ⟨i', j', hslot', hdip', hholds⟩ := h.stored c hc
  -- the entry of `c` is the one looked at
  rw [hkey] at hslot'
  have hi := Option.some.inj ((h.outer i' _ hslot').symm.trans (h.outer i _ hslot))
  subst hi
  rw [hdaddr] at hdip'
  have hj := Option.some.inj ((h.inner i' j' _ hdip').symm.trans (h.inner i' j _ hdip))
  subst hj
  rw [Prod.mk.injEq] at hkey
  exact ⟨c, hc, ⟨hkey.1, hdaddr, hkey.2⟩, hholds⟩

theorem HoldsTuple.wellListed [DecidableEq A] {e : RssDip A} {c : RssTuple A}
    (h : HoldsTuple fam e c) : WellListed e := by
  have hsorted : (tuplePorts fam c).Pairwise (· < ·) := availablePorts_sorted _
  refine ⟨?_, ?_⟩
  · intro a ha b hb hab
    obtain ⟨ha1, ha2⟩ := ha
    obtain ⟨hb1, hb2⟩ := hb
    rw [h.lists.num_eq] at ha2 hb2
    have hga := List.getElem?_eq_getElem (l := tuplePorts fam c) (i := a - 1) (by omega)
    have hgb := List.getElem?_eq_getElem (l := tuplePorts fam c) (i := b - 1) (by omega)
    have hpa := h.lists.dport_eq _ _ hga
    have hpb := h.lists.dport_eq _ _ hgb
    rw [Nat.sub_add_cancel ha1] at hpa
    rw [Nat.sub_add_cancel hb1] at hpb
    rw [hpa, hpb]
    exact List.pairwise_iff_getElem.mp hsorted _ _ _ _ (by omega)
  · rw [h.last_idx_eq, h.lists.num_eq]

/-- The ports at the indices of an entry are the tuple's. -/
theorem HoldsTuple.exists_dport_iff [DecidableEq A] {e : RssDip A} {c : RssTuple A}
    (h : HoldsTuple fam e c) (p : ℕ) :
    (∃ k, 1 ≤ k ∧ k ≤ e.num ∧ e.dport k = p) ↔ p ∈ tuplePorts fam c := by
  rw [h.lists.num_eq, List.mem_iff_getElem?]
  constructor
  · rintro ⟨k, hk1, hk2, rfl⟩
    have hg := List.getElem?_eq_getElem (l := tuplePorts fam c) (i := k - 1) (by omega)
    refine ⟨k - 1, ?_⟩
    rw [hg, ← h.lists.dport_eq _ _ hg, Nat.sub_add_cancel hk1]
  · rintro ⟨k, hk⟩
    obtain ⟨hlt, -⟩ := List.getElem?_eq_some_iff.mp hk
    exact ⟨k + 1, by omega, by omega, h.lists.dport_eq k p hk⟩

/-- The entries of a new table are well listed.
SOURCE: lib/ff_dpdk_if.c:2751-2779 -/
theorem TblInv.tblWell [DecidableEq A] {t : RssTbl A} {ins : List (RssTuple A)}
    (h : TblInv fam t ins) : TblWell fam t := by
  intro i j huse
  obtain ⟨c, -, -, hholds⟩ := h.holds_of_inUse fam huse
  exact hholds.wellListed fam

/-- After a call that returns 0 every entry in use selects exactly its ports in the range. -/
def PortrangeExact (enable : Bool) (t : RssTbl A) (first last : ℕ) : Prop :=
  (rssTblSetPortrange fam enable t first last).2 = 0 →
    ∀ i j, InUse fam (rssTblSetPortrange fam enable t first last).1 i j →
      ExactRange first last (((rssTblSetPortrange fam enable t first last).1 i).dip_tbl j)

/-- Before a call that returns 0 every entry in use is ready for it. -/
def PortrangeReady (enable : Bool) (t : RssTbl A) (first last : ℕ) : Prop :=
  (rssTblSetPortrange fam enable t first last).2 = 0 →
    ∀ i j, InUse fam t i j → RangeReady first last ((t i).dip_tbl j)

/-- The two conditions agree on well listed tables. -/
theorem portrangeExact_iff_ready {t : RssTbl A} (hw : TblWell fam t) (enable : Bool)
    (first last : ℕ) :
    PortrangeExact fam enable t first last ↔ PortrangeReady fam enable t first last := by
  apply imp_congr_right
  intro hret
  obtain ⟨henable, hle, hset⟩ := rssTblSetPortrange_of_ret_zero fam hret
  subst henable
  have hok := (rssTblSetPortrange_ret_zero_iff fam t hle).mp hret
  have huse : ∀ i j, InUse fam (rssTblSetPortrange fam true t first last).1 i j ↔ InUse fam t i j := by
    rcases rssTblSetPortrange_step fam true t first last with ⟨-, hne⟩ | ⟨-, hstep⟩
    · exact absurd hret hne
    · exact inUse_congr fam hstep
  apply forall_congr'
  intro i
  apply forall_congr'
  intro j
  rw [huse i j]
  apply imp_congr_right
  intro hij
  obtain ⟨hpos, hrange⟩ := hok i j hij
  rw [hset i j hij]
  exact setDipRange_exact_iff hle (hw i j hij) hpos hrange

end Table

/-- The table after `ff_rss_tbl_init` and a sequence of calls of `ff_rss_tbl_set_portrange`. -/
def portrangeRun (conf : RssConf) (sc : Bool) (cfgs : List RssTblCfg) (enable : Bool)
    (calls : List (ℕ × ℕ)) : RssTbl UInt32 :=
  runPortranges (rssFamily4 conf) enable (ffRssTblInit conf sc cfgs).tbl calls

/-- The table after `ff_rss_tbl6_init` and a sequence of calls of `ff_rss_tbl6_set_portrange`. -/
def portrangeRun6 (conf : RssConf) (sc : Bool) (cfgs : List RssTblCfg) (enable : Bool)
    (calls : List (ℕ × ℕ)) : RssTbl In6Addr :=
  runPortranges (rssFamily6 conf) enable (ffRssTbl6Init conf sc cfgs).tbl calls

/-- After any sequence of calls, a call of `ff_rss_tbl_set_portrange` that returns 0 selects exactly
the ports of its own range if and only if, before it, each entry in use lists a port of the range
and, when the range ends above the last listed port, still selects the end of the list.  Tables made
from nonzero addresses are always well listed.  The same holds of the IPv6 functions.
SOURCE: lib/ff_dpdk_if.c:2802-2859, lib/ff_dpdk_if.c:3581-3637 -/
theorem ffRssTblSetPortrange_exact_iff (conf : RssConf) (sc : Bool) (cfgs : List RssTblCfg)
    (enable : Bool) (calls : List (ℕ × ℕ)) (first last : ℕ) :
    ((∀ c ∈ cfgs, c.family ≠ .inet6 → c.saddr ≠ 0 ∧ c.daddr ≠ 0) →
        TblWell (rssFamily4 conf) (portrangeRun conf sc cfgs enable calls)) ∧
      (TblWell (rssFamily4 conf) (portrangeRun conf sc cfgs enable calls) →
        (PortrangeExact (rssFamily4 conf) enable (portrangeRun conf sc cfgs enable calls) first last ↔
          PortrangeReady (rssFamily4 conf) enable (portrangeRun conf sc cfgs enable calls)
            first last)) ∧
      ((∀ c ∈ cfgs, c.family = .inet6 → c.saddr6 ≠ (fun _ => 0) ∧ c.daddr6 ≠ (fun _ => 0)) →
        TblWell (rssFamily6 conf) (portrangeRun6 conf sc cfgs enable calls)) ∧
      (TblWell (rssFamily6 conf) (portrangeRun6 conf sc cfgs enable calls) →
        (PortrangeExact (rssFamily6 conf) enable (portrangeRun6 conf sc cfgs enable calls) first last ↔
          PortrangeReady (rssFamily6 conf) enable (portrangeRun6 conf sc cfgs enable calls)
            first last)) := by
  refine ⟨fun h => ?_, fun hw => ?_, fun h => ?_, fun hw => ?_⟩
  · obtain ⟨ins, hinv, -⟩ := TblInv.init (rssFamily4 conf) sc (cfgs4 cfgs) fun c hc =>
      cfgs4_nonzero h c (mem_of_log _ hc)
    exact (hinv.tblWell _).run _ enable calls
  · exact portrangeExact_iff_ready _ hw enable first last
  · obtain ⟨ins, hinv, -⟩ := TblInv.init (rssFamily6 conf) sc (cfgs6 cfgs) fun c hc =>
      cfgs6_nonzero h c (mem_of_log _ hc)
    exact (hinv.tblWell _).run _ enable calls
  · exact portrangeExact_iff_ready _ hw enable first last

/-- Two queues on every port, this process on queue 0, and the default key. -/
def twoQueueConf : RssConf where
  rsskey_len := 40
  rsskey := keyBytes defaultRsskey40bytes
  nb_queue_list _ := 2
  rss_reta_size _ := 128
  tx_queue_id _ := 0

/-- Remote address 192.168.1.1, remote port 80, local address 192.168.1.2. -/
def lanTuple : RssTuple UInt32 := ⟨0, 0x0201a8c0, 0x0101a8c0, 0x5000⟩

def lanCfg : List RssTblCfg :=
  [⟨0, 0x5000, 0x0201a8c0, 0x0101a8c0, .inet, fun _ => 0, fun _ => 0⟩]

/-- Ports 10001 and 65534 come back to queue 0, port 65535 does not. -/
theorem lanTuple_ports :
    10001 ∈ tuplePorts (rssFamily4 twoQueueConf) lanTuple ∧
      65534 ∈ tuplePorts (rssFamily4 twoQueueConf) lanTuple ∧
      ∀ p ∈ tuplePorts (rssFamily4 twoQueueConf) lanTuple, p < 65535 := by
  have h1 : ffRssCheck twoQueueConf 0 0x0101a8c0 0x0201a8c0 0x5000 (htons (UInt16.ofNat 10001)) =
      true := by decide
  have h2 : ffRssCheck twoQueueConf 0 0x0101a8c0 0x0201a8c0 0x5000 (htons (UInt16.ofNat 65534)) =
      true := by decide
  have h3 : ffRssCheck twoQueueConf 0 0x0101a8c0 0x0201a8c0 0x5000 (htons (UInt16.ofNat 65535)) =
      false := by decide
  refine ⟨?_, ?_, ?_⟩
  · rw [mem_tuplePorts_iff]
    exact ⟨by omega, h1, by omega⟩
  · rw [mem_tuplePorts_iff]
    exact ⟨by omega, h2, by omega⟩
  · intro p hp
    rw [mem_tuplePorts_iff] at hp
    obtain ⟨hlt, hcheck, -⟩ := hp
    by_contra hge
    have hp : p = 65535 := by omega
    subst hp
    exact Bool.false_ne_true (h3.symm.trans hcheck)

/-- On an entry with the list of `lanTuple`, a call with the range of port 10001 alone
selects that one port. -/
theorem setDipRange_single {e : RssDip UInt32}
    (h : HoldsTuple (rssFamily4 twoQueueConf) e lanTuple) :
    (setDipRange 10001 10001 e).first_idx ≠ 0 ∧
      (setDipRange 10001 10001 e).last_idx = (setDipRange 10001 10001 e).first_idx ∧
      (setDipRange 10001 10001 e).first_idx ≤ e.num ∧
      e.dport (setDipRange 10001 10001 e).first_idx = 10001 ∧ 10001 < e.dport e.num ∧
      e.dport e.num < 65535 := by
  have he := h.wellListed
  obtain ⟨hp1, hp2, hmax⟩ := lanTuple_ports
  obtain ⟨k, hk1, hk2, hk⟩ := (h.exists_dport_iff _ 10001).mpr hp1
  obtain ⟨m, hm1, hm2, hm⟩ := (h.exists_dport_iff _ 65534).mpr hp2
  have hnum : 1 ≤ e.num := by omega
  have hend : e.dport m ≤ e.dport e.num :=
    (he.sorted.le_iff_le ⟨hm1, hm2⟩ ⟨hnum, le_refl _⟩).mpr hm2
  have hlast : e.dport e.num < 65535 :=
    hmax _ ((h.exists_dport_iff _ _).mp ⟨e.num, hnum, le_refl _, rfl⟩)
  have hcases := setDipRange_cases (le_refl 10001) e
  cases hcases with
  | noPort hnone hf hl =>
    have := hnone k hk1 hk2
    omega
  | keepLast ha hge hmin hlt hl => omega
  | single ha hge hmin hge' heq hl =>
    refine ⟨by omega, hl, ha.2, ?_, by omega, hlast⟩
    have hstart : StartsRange 10001 e (setDipRange 10001 10001 e) :=
      ⟨rfl, rfl, ha.1, ha.2, hge, hmin⟩
    have hle := (hstart.first_le_iff he hk1 hk2).mpr (by omega)
    have := (he.sorted.le_iff_le ⟨ha.1, ha.2⟩ ⟨hk1, hk2⟩).mpr hle
    omega
  | search ha hge hmin hge' hlt b hb hbge hbmin hl => omega

/-- The next call, with a range that ends above the list, succeeds as well. -/
theorem setDipRange_widen {e : RssDip UInt32}
    (h : HoldsTuple (rssFamily4 twoQueueConf) e lanTuple) :
    (setDipRange 10001 65535 (setDipRange 10001 10001 e)).first_idx ≠ 0 ∧
      (setDipRange 10001 65535 (setDipRange 10001 10001 e)).first_idx ≤
        (setDipRange 10001 65535 (setDipRange 10001 10001 e)).last_idx := by
  obtain ⟨hpos, hsame, hle, hport, -, hlast⟩ := setDipRange_single h
  have he := (h.wellListed (rssFamily4 twoQueueConf)).setDipRange (le_refl 10001)
  have hnum : (setDipRange 10001 10001 e).num = e.num := rfl
  have hdport : (setDipRange 10001 10001 e).dport = e.dport := rfl
  generalize setDipRange 10001 10001 e = e' at hpos hsame hle hport he hnum hdport ⊢
  rw [← hdport] at hport hlast
  rw [← hnum] at hle hlast
  have hcases := setDipRange_cases (show 10001 ≤ 65535 by omega) e'
  cases hcases with
  | noPort hnone hf hl =>
    have := hnone e'.first_idx (by omega) hle
    omega
  | keepLast ha hge hmin hlt hl =>
    have hstart : StartsRange 10001 e' (setDipRange 10001 65535 e') :=
      ⟨rfl, rfl, ha.1, ha.2, hge, hmin⟩
    refine ⟨by omega, ?_⟩
    rw [hl, hsame]
    exact (hstart.first_le_iff he (by omega) hle).mpr (by omega)
  | single ha hge hmin hge' heq hl => omega
  | search ha hge hmin hge' hlt b hb hbge hbmin hl => omega

/-- Narrowed to port 10001 and widened again, the entry still selects that port only. -/
theorem narrowed_not_exact :
    ¬ PortrangeExact (rssFamily4 twoQueueConf) true
      (portrangeRun twoQueueConf true lanCfg true [(10001, 10001)]) 10001 65535 := by
  obtain ⟨ins, hinv, hmem⟩ := TblInv.init (rssFamily4 twoQueueConf) true [lanTuple] fun c hc => by
    obtain rfl := List.mem_singleton.mp (mem_of_log _ hc)
    decide
  rw [rssTblInit_single_log] at hmem
  have hcfg : cfgs4 lanCfg = [lanTuple] := rfl
  rw [portrangeRun, runPortranges, List.foldl_cons, List.foldl_nil, ffRssTblInit, hcfg]
  generalize (rssTblInit (rssFamily4 twoQueueConf) true [lanTuple]).tbl = t at hinv ⊢
  have hholds : ∀ i j, InUse (rssFamily4 twoQueueConf) t i j →
      HoldsTuple (rssFamily4 twoQueueConf) ((t i).dip_tbl j) lanTuple := by
    intro i j huse
    obtain ⟨c, hc, -, hh⟩ := hinv.holds_of_inUse _ huse
    have hceq : c = lanTuple := by simpa using (hmem c).mp hc
    rwa [hceq] at hh
  -- the first call returns 0 and changes every entry in use
  have hret : (rssTblSetPortrange (rssFamily4 twoQueueConf) true t 10001 10001).2 = 0 := by
    rw [rssTblSetPortrange_ret_zero_iff _ t (le_refl _)]
    intro i j huse
    obtain ⟨hpos, hsame, -⟩ := setDipRange_single (hholds i j huse)
    exact ⟨hpos, by omega⟩
  obtain ⟨-, -, hset⟩ := rssTblSetPortrange_of_ret_zero _ hret
  have huse : ∀ i j, InUse (rssFamily4 twoQueueConf)
      (rssTblSetPortrange (rssFamily4 twoQueueConf) true t 10001 10001).1 i j ↔
      InUse (rssFamily4 twoQueueConf) t i j := by
    rcases rssTblSetPortrange_step (rssFamily4 twoQueueConf) true t 10001 10001 with
      ⟨-, hne⟩ | ⟨-, hstep⟩
    · exact absurd hret hne
    · exact inUse_congr _ hstep
  rw [portrangeExact_iff_ready _ ((hinv.tblWell _).setPortrange _ true 10001 10001)]
  intro hready
  have hret' : (rssTblSetPortrange (rssFamily4 twoQueueConf) true
      (rssTblSetPortrange (rssFamily4 twoQueueConf) true t 10001 10001).1 10001 65535).2 = 0 := by
    rw [rssTblSetPortrange_ret_zero_iff _ _ (by omega)]
    intro i j hij
    have hij' := (huse i j).mp hij
    rw [hset i j hij']
    exact setDipRange_widen (hholds i j hij')
  obtain ⟨i, j, hslot, hdip, -⟩ := hinv.stored lanTuple ((hmem lanTuple).mpr List.mem_cons_self)
  have hij : InUse (rssFamily4 twoQueueConf) t i j := by
    constructor
    · by_contra hany
      simp [slotKey, hany] at hslot
    · by_contra hany
      simp [dipKey, hany] at hdip
  obtain ⟨-, hfull⟩ := hready hret' i j ((huse i j).mpr hij)
  obtain ⟨-, hsame, -, hport, hgt, hlast⟩ := setDipRange_single (hholds i j hij)
  rw [hset i j hij] at hfull
  have hend := hfull hlast
  rw [hsame] at hend
  have : ((t i).dip_tbl j).dport (setDipRange 10001 10001 ((t i).dip_tbl j)).num = 10001 := by
    rw [← hend]
    exact hport
  have hnum : (setDipRange 10001 10001 ((t i).dip_tbl j)).num = ((t i).dip_tbl j).num := rfl
  rw [hnum] at this
  omega

end FStack.Analysis
