import FStack.Analysis.ConfigBounds
import Mathlib.Data.List.GetD

/-!
# The lcores of the ports

`ff_check_config` looks up every lcore that a port lists in the table that `parse_lcore_mask` fills.
`uint16BinarySearch_found` is about the search alone, in elements that may be equal.  Together with the order of the
table, it says that every configuration that is accepted runs its ports on lcores of the last mask, and on none if
there was no mask.
-/

set_option autoImplicit false

namespace FStack.Analysis

open FStack.Prelude FStack.Model

/-! ## The search -/

/-- What the search has to return: an index between the bounds that holds the number, or -1 if there is none. -/
def Found (arr : ℕ → ℕ) (x : ℕ) (l r n : ℤ) : Prop :=
  (∃ k : ℕ, n = k ∧ l ≤ k ∧ (k : ℤ) ≤ r ∧ arr k = x) ∨ n = -1 ∧ ∀ k : ℕ, l ≤ k → (k : ℤ) ≤ r → arr k ≠ x

variable {arr : ℕ → ℕ} {x : ℕ} {l r : ℤ}

/-- INTERNAL: what is right on the left of an element that is too large is right.
SOURCE: lib/ff_config.c:219-221 -/
theorem Found.of_left {mid n : ℤ} (h : Found arr x l (mid - 1) n) (hmid : mid ≤ r)
    (hlarge : ∀ k : ℕ, mid ≤ k → (k : ℤ) ≤ r → arr k ≠ x) : Found arr x l r n := by
  rcases h with ⟨k, rfl, hl, hr, hk⟩ | ⟨rfl, hnone⟩
  · exact .inl ⟨k, rfl, hl, by omega, hk⟩
  · refine .inr ⟨rfl, fun k hl hr => ?_⟩
    by_cases hk : (k : ℤ) ≤ mid - 1
    · exact hnone k hl hk
    · exact hlarge k (by omega) hr

/-- INTERNAL: what is right on the right of an element that is too small is right.
SOURCE: lib/ff_config.c:223-224 -/
theorem Found.of_right {mid n : ℤ} (h : Found arr x (mid + 1) r n) (hmid : l ≤ mid)
    (hsmall : ∀ k : ℕ, l ≤ k → (k : ℤ) ≤ mid → arr k ≠ x) : Found arr x l r n := by
  rcases h with ⟨k, rfl, hl, hr, hk⟩ | ⟨rfl, hnone⟩
  · exact .inl ⟨k, rfl, by omega, hr, hk⟩
  · refine .inr ⟨rfl, fun k hl hr => ?_⟩
    by_cases hk : mid + 1 ≤ (k : ℤ)
    · exact hnone k hk hr
    · exact hsmall k hl (by omega)

/-- In sorted elements, the search returns what it has to.
SOURCE: lib/ff_config.c:208-231 -/
theorem uint16BinarySearch_found (hl : 0 ≤ l) (hsorted : ∀ i j : ℕ, i ≤ j → (j : ℤ) ≤ r → arr i ≤ arr j) :
    Found arr x l r (uint16BinarySearch (some arr) x l r).val := by
  generalize ht : (some arr : Option (ℕ → ℕ)) = t
  fun_induction uint16BinarySearch t x l r with
  | case1 l r hle mid ihlow ihhigh =>
    subst ht
    have hmid : l ≤ mid ∧ mid ≤ r := by omega
    have hcast : ((mid.toNat : ℕ) : ℤ) = mid := Int.toNat_of_nonneg (hl.trans hmid.1)
    simp only [Logged.val_bind, Option.getD_some]
    split
    · rename_i hfound
      exact .inl ⟨mid.toNat, hcast.symm, by omega, by omega, hfound⟩
    · rename_i hne
      split
      · rename_i hlt
        refine (ihlow hl (fun i j hij hj => hsorted i j hij (by omega))).of_left hmid.2 fun k hk hr => ?_
        have hge := hsorted mid.toNat k (by omega) hr
        exact (Nat.lt_of_lt_of_le hlt hge).ne'
      · rename_i hge
        refine (ihhigh (by omega) hsorted).of_right hmid.1 fun k _ hk => ?_
        have hle := hsorted k mid.toNat (by omega) (by omega)
        have hlt : arr mid.toNat < x := Nat.lt_of_le_of_ne (Nat.not_lt.mp hge) hne
        exact (Nat.lt_of_le_of_lt hle hlt).ne
  | case2 l r hlt => exact .inr ⟨rfl, fun k hk hr => absurd (hk.trans hr) hlt⟩

/-- The search reads between its bounds.
SOURCE: lib/ff_config.c:208-231 -/
theorem uint16BinarySearch_between {t : Option (ℕ → ℕ)} :
    (uint16BinarySearch t x l r).Every fun a => l ≤ a.idx ∧ a.idx ≤ r := by
  fun_induction uint16BinarySearch t x l r with
  | case1 l r hle mid ihlow ihhigh =>
    have hmid : l ≤ mid ∧ mid ≤ r := by omega
    rw [Logged.every_bind, touch, Logged.every_emit]
    refine ⟨hmid, ?_⟩
    dsimp only
    split
    · exact Logged.every_pure _
    · split
      · exact fun a ha => ⟨(ihlow a ha).1, by have := (ihlow a ha).2; omega⟩
      · exact fun a ha => ⟨by have := (ihhigh a ha).1; omega, (ihhigh a ha).2⟩
  | case2 l r hlt => exact Logged.every_pure _

/-- The search in an array returns what it has to, and reads nothing outside its bounds. -/
def SearchRight (arr : List ℕ) (x : ℕ) (l r : ℤ) : Prop :=
  Found (arr.getD · 0) x l r (uint16BinarySearch (some (arr.getD · 0)) x l r).val ∧
    (uint16BinarySearch (some (arr.getD · 0)) x l r).Every fun a => l ≤ a.idx ∧ a.idx ≤ r

theorem searchRight_of_sorted {arr : List ℕ} (hsorted : arr.Pairwise (· ≤ ·)) (hl : 0 ≤ l) (hr : r < arr.length) :
    SearchRight arr x l r := by
  refine ⟨uint16BinarySearch_found hl fun i j hij hj => ?_, uint16BinarySearch_between⟩
  have hjlt : j < arr.length := by omega
  rw [List.getD_eq_getElem _ _ (Nat.lt_of_le_of_lt hij hjlt), List.getD_eq_getElem _ _ hjlt]
  rcases Nat.lt_or_eq_of_le hij with hlt | rfl
  · exact List.pairwise_iff_getElem.mp hsorted i j _ hjlt hlt
  · exact Nat.le_refl _

/-! ## The configuration -/

/-- The line sets the mask. -/
def IsMaskLine (l : IniLine) : Prop := l.sect = "dpdk" ∧ l.name = "lcore_mask"

instance (l : IniLine) : Decidable (IsMaskLine l) := inferInstanceAs (Decidable (_ ∧ _))

/-- The lcores that the file enables: those that `parse_lcore_mask` computes from the last mask. -/
def enabledLcores (proc_id : ℤ) (lines : List IniLine) : List ℕ :=
  lines.foldl (fun cores l => if IsMaskLine l then (parseLcoreMask proc_id l.value).1 else cores) []

/-- The table holds these lcores. -/
def TableHolds (cfg : Config) (cores : List ℕ) : Prop :=
  cfg.nb_procs = cores.length ∧ ∀ k < cores.length, cfg.proc_lcore.getD (fun _ => 0) k = cores.getD k 0

variable {cfg : Config} {proc_id : ℤ} {cores : List ℕ}

/-- INTERNAL: what one line makes of the table.
SOURCE: lib/ff_config.c:71-141, 971-1086 -/
theorem TableHolds.line (h : TableHolds cfg cores) {l : IniLine}
    (hok : (iniParseHandler proc_id cfg l).val.2 = true) :
    TableHolds (iniParseHandler proc_id cfg l).val.1
      (if IsMaskLine l then (parseLcoreMask proc_id l.value).1 else cores) := by
  by_cases hmask : IsMaskLine l
  · rw [if_pos hmask]
    simp only [iniParseHandler, hmask.1, hmask.2, if_true, Logged.val_pure, lcoreMaskLine] at hok ⊢
    by_cases halloc : l.list_alloc = true
    · simp only [halloc, if_true] at hok ⊢
      exact ⟨if_pos hok, fun _ _ => rfl⟩
    · simp only [halloc, if_false, Bool.false_eq_true] at hok
  · have hsame : SameProcs cfg (iniParseHandler proc_id cfg l).val.1 := iniParseHandler_sameProcs hmask
    rw [if_neg hmask, TableHolds, hsame.1, hsame.2]
    exact h

/-- INTERNAL: the table after a file whose lines are all accepted. -/
theorem TableHolds.lines (h : TableHolds cfg cores) {lines : List IniLine}
    (hok : (iniParse proc_id cfg lines).val.2 = true) :
    TableHolds (iniParse proc_id cfg lines).val.1
      (lines.foldl (fun cores l => if IsMaskLine l then (parseLcoreMask proc_id l.value).1 else cores) cores) := by
  induction lines generalizing cfg cores with
  | nil => exact h
  | cons l rest ih =>
    simp only [iniParse, Logged.val_bind] at hok ⊢
    split at hok
    · rename_i hl
      simp only [hl, if_true]
      exact ih (h.line hl) hok
    · exact absurd hok Bool.false_ne_true

theorem TableHolds.mem_of_enabled (h : TableHolds cfg cores) {lcore_id : ℕ} (henabled : Enabled cfg lcore_id) :
    lcore_id ∈ cores := by
  obtain ⟨k, hk, rfl⟩ := henabled
  rw [h.1] at hk
  rw [h.2 k hk, List.getD_eq_getElem _ _ hk]
  exact List.getElem_mem hk

/-- The check accepts a configuration only if every lcore that an enabled port lists is an enabled one. -/
def LcoresChecked (args : ProcArgs) (lines : List IniLine) : Prop :=
  ∀ cfg, (iniParse args.proc_id {} lines).val = (cfg, true) → (ffCheckConfig args cfg).val = true →
    ∀ portid ∈ cfg.ports, ∀ lcore_id ∈ (portAt cfg portid).lcores, lcore_id ∈ enabledLcores args.proc_id lines

theorem lcoresChecked (args : ProcArgs) (lines : List IniLine) : LcoresChecked args lines := by
  intro cfg hparse hcheck portid hport lcore_id hlcore
  have hload : (ffLoadConfig args lines).val = some cfg := by
    rw [ffLoadConfig, Logged.val_bind, hparse]
    dsimp only
    rw [if_pos rfl, Logged.val_bind, hcheck]
    rfl
  have henabled := ((ffLoadConfig_accepted hload).2 portid hport).2.1 lcore_id hlcore
  have htable := @TableHolds.lines {} args.proc_id []
    ⟨rfl, fun k hk => absurd hk (Nat.not_lt_zero k)⟩ lines (by rw [hparse])
  rw [hparse] at htable
  exact htable.mem_of_enabled henabled

/-- The search is right in every sorted array, and no configuration is accepted in which a port lists an lcore that is
not enabled.
SOURCE: lib/ff_config.c:71-141, 208-231, 1321-1360 -/
theorem lcore_search_right {arr : List ℕ} (hsorted : arr.Pairwise (· ≤ ·)) {l r : ℤ} (hl : 0 ≤ l) (hr : r < arr.length)
    (x : ℕ) (args : ProcArgs) (lines : List IniLine) : SearchRight arr x l r ∧ LcoresChecked args lines :=
  ⟨searchRight_of_sorted hsorted hl hr, lcoresChecked args lines⟩

/-- An array with a duplicate, and a file without a mask. -/
theorem lcore_search_twice : SearchRight [1, 3, 3, 7] 3 0 3 ∧ LcoresChecked ⟨0, "primary"⟩ [] :=
  lcore_search_right (by simp) le_rfl (by simp) 3 ⟨0, "primary"⟩ []

end FStack.Analysis
