import FStack.Model.Config
import Mathlib.Data.List.Perm.Subperm
import Mathlib.Tactic.Linarith

/-!
# The table of processes

`proc_lcore` is filled from the bits of `lcore_mask`, from the lowest one up.  Its first `nb_procs`
elements are therefore increasing and below `RTE_MAX_LCORE`, from the line that sets it to the end of
the file, and `uint16_binary_search` finds a number in it exactly if it is there.
-/

set_option autoImplicit false

namespace FStack.Analysis

open FStack.Prelude FStack.Model

/-- The access is to an element of a table that exists. -/
def InTable (a : TableAccess) : Prop := a.allocated = true ∧ 0 ≤ a.idx ∧ a.idx < a.table.size

/-- The first `nb_procs` elements of `proc_lcore` exist and are increasing lcore numbers. -/
structure ProcTable (cfg : Config) : Prop where
  le : cfg.nb_procs ≤ RTE_MAX_LCORE
  isSome : 0 < cfg.nb_procs → cfg.proc_lcore.isSome = true
  increasing : ∀ i j, i < j → j < cfg.nb_procs →
    cfg.proc_lcore.getD (fun _ => 0) i < cfg.proc_lcore.getD (fun _ => 0) j

theorem ProcTable.empty : ProcTable {} :=
  ⟨by decide, fun h => absurd h (by decide), fun _ _ _ h => absurd h (by simp)⟩

/-- Different processes have different lcores. -/
theorem ProcTable.injOn {cfg : Config} (h : ProcTable cfg) {p p' : ℕ} (hp : p < cfg.nb_procs)
    (hp' : p' < cfg.nb_procs)
    (heq : cfg.proc_lcore.getD (fun _ => 0) p = cfg.proc_lcore.getD (fun _ => 0) p') : p = p' := by
  rcases Nat.lt_trichotomy p p' with hlt | heq' | hlt
  · exact absurd heq (Nat.ne_of_lt (h.increasing p p' hlt hp'))
  · exact heq'
  · exact absurd heq.symm (Nat.ne_of_lt (h.increasing p' p hlt hp))

/-- The invariant is about two fields only. -/
theorem ProcTable.congr {cfg cfg' : Config} (h : ProcTable cfg) (hn : cfg'.nb_procs = cfg.nb_procs)
    (hp : cfg'.proc_lcore = cfg.proc_lcore) : ProcTable cfg' :=
  ⟨hn ▸ h.le, by rw [hn, hp]; exact h.isSome, by rw [hn, hp]; exact h.increasing⟩

/-! ## The mask -/

/-- Increasing lcore numbers below `idx`. -/
def CoresBelow (idx : ℕ) (cores : List ℕ) : Prop :=
  cores.Pairwise (· < ·) ∧ ∀ c ∈ cores, c < idx ∧ c < RTE_MAX_LCORE

theorem digitCores_mem {idx val c : ℕ} (h : c ∈ digitCores idx val) :
    idx ≤ c ∧ c < idx + 4 ∧ c < RTE_MAX_LCORE := by
  simp only [digitCores, List.mem_filter, List.mem_map, List.mem_range, Bool.and_eq_true,
    decide_eq_true_eq] at h
  obtain ⟨⟨k, hk, rfl⟩, hlt, -⟩ := h
  exact ⟨by omega, by omega, hlt⟩

theorem digitCores_pairwise (idx val : ℕ) : (digitCores idx val).Pairwise (· < ·) := by
  refine List.Pairwise.filter _ (List.Pairwise.map _ ?_ List.pairwise_lt_range)
  intro a b hab
  omega

/-- One digit of the mask.
SOURCE: lib/ff_config.c:115-129 -/
theorem CoresBelow.digit {idx : ℕ} {cores : List ℕ} (h : CoresBelow idx cores) (val : ℕ) :
    CoresBelow (idx + 4) (cores ++ digitCores idx val) := by
  constructor
  · rw [List.pairwise_append]
    refine ⟨h.1, digitCores_pairwise idx val, fun a ha b hb => ?_⟩
    have := (h.2 a ha).1
    have := (digitCores_mem hb).1
    omega
  · intro c hc
    rcases List.mem_append.mp hc with hc | hc
    · exact ⟨by have := (h.2 c hc).1; omega, (h.2 c hc).2⟩
    · exact ⟨(digitCores_mem hc).2.1, (digitCores_mem hc).2.2⟩

/-- The whole mask.
SOURCE: lib/ff_config.c:109-131 -/
theorem maskLoop_cores (s : List Char) (idx : ℕ) (cores : List ℕ) (h : CoresBelow idx cores) :
    (maskLoop s idx cores).1.Pairwise (· < ·) ∧
      ∀ c ∈ (maskLoop s idx cores).1, c < RTE_MAX_LCORE := by
  induction s generalizing idx cores with
  | nil => exact ⟨h.1, fun c hc => (h.2 c hc).2⟩
  | cons c s ih =>
    unfold maskLoop
    split
    · split
      · exact ⟨h.1, fun c hc => (h.2 c hc).2⟩
      · exact ih _ _ (h.digit _)
    · exact ⟨h.1, fun c hc => (h.2 c hc).2⟩

theorem parseLcoreMask_fst (proc_id : ℤ) (value : String) :
    (parseLcoreMask proc_id value).1 = (maskLoop (maskDigits value.toList) 0 []).1 := by
  unfold parseLcoreMask
  split <;> simp_all

/-- The lcores that a mask enables.
SOURCE: lib/ff_config.c:71-141 -/
theorem parseLcoreMask_cores (proc_id : ℤ) (value : String) :
    (parseLcoreMask proc_id value).1.Pairwise (· < ·) ∧
      (parseLcoreMask proc_id value).1.length ≤ RTE_MAX_LCORE := by
  rw [parseLcoreMask_fst]
  obtain ⟨hsorted, hlt⟩ := maskLoop_cores (maskDigits value.toList) 0 [] ⟨by simp, by simp⟩
  refine ⟨hsorted, ?_⟩
  have hnodup := hsorted.imp (fun {a b} (h : a < b) => Nat.ne_of_lt h)
  have hrange : ∀ c ∈ (maskLoop (maskDigits value.toList) 0 []).1, c ∈ List.range RTE_MAX_LCORE :=
    fun c hc => List.mem_range.mpr (hlt c hc)
  have hsub := List.subperm_of_subset hnodup hrange
  simpa using hsub.length_le

/-- The line `lcore_mask`, when it is accepted.
SOURCE: lib/ff_config.c:71-141, 994-996 -/
theorem ProcTable.lcoreMaskLine {proc_id : ℤ} {cfg : Config} {l : IniLine}
    (hok : (lcoreMaskLine proc_id cfg l).2 = true) :
    ProcTable (FStack.Model.lcoreMaskLine proc_id cfg l).1 := by
  unfold FStack.Model.lcoreMaskLine at hok ⊢
  by_cases ha : l.list_alloc
  · simp only [ha, if_true] at hok ⊢
    obtain ⟨hsorted, hlen⟩ := parseLcoreMask_cores proc_id l.value
    refine ⟨?_, fun _ => rfl, fun i j hij hj => ?_⟩
    · simpa [hok] using hlen
    · simp only [hok, if_true] at hj
      have hi := hij.trans hj
      have hlt := List.pairwise_iff_getElem.mp hsorted i j hi hj hij
      simpa [List.getD_eq_getElem?_getD, hi, hj] using hlt
  · simp [ha] at hok

/-! ## The search -/

/-- The lcore is enabled: it is in the table. -/
def Enabled (cfg : Config) (lcore_id : ℕ) : Prop :=
  ∃ k < cfg.nb_procs, cfg.proc_lcore.getD (fun _ => 0) k = lcore_id

variable {arr : Option (ℕ → ℕ)} {x : ℕ}

/-- The search reads between its bounds.
SOURCE: lib/ff_config.c:206-226 -/
theorem uint16BinarySearch_inTable {l r : ℤ} (hsome : l ≤ r → arr.isSome = true) (hl : 0 ≤ l)
    (hr : r < RTE_MAX_LCORE) : (uint16BinarySearch arr x l r).Every InTable := by
  fun_induction uint16BinarySearch arr x l r with
  | case1 l r hle mid ihlow ihhigh =>
    have hmid : l ≤ mid ∧ mid ≤ r := by omega
    have hsome := hsome hle
    simp only [touch, Logged.every_bind, Logged.every_emit]
    refine ⟨⟨hsome, by simpa using hl.trans hmid.1, ?_⟩, ?_⟩
    · simp only [CfgTable.size]
      omega
    · split
      · exact Logged.every_pure _
      · split
        · exact ihlow (fun _ => hsome) hl (by omega)
        · exact ihhigh (fun _ => hsome) (by omega) hr
  | case2 l r hlt => exact Logged.every_pure _

/-- In increasing elements, the search finds a number exactly if it is between its bounds.
SOURCE: lib/ff_config.c:206-226 -/
theorem uint16BinarySearch_nonneg_iff {l r : ℤ} (hl : 0 ≤ l)
    (hinc : ∀ i j : ℕ, i < j → (j : ℤ) ≤ r → arr.getD (fun _ => 0) i < arr.getD (fun _ => 0) j) :
    0 ≤ (uint16BinarySearch arr x l r).val ↔
      ∃ k : ℕ, l ≤ k ∧ (k : ℤ) ≤ r ∧ arr.getD (fun _ => 0) k = x := by
  fun_induction uint16BinarySearch arr x l r with
  | case1 l r hle mid ihlow ihhigh =>
    have hmid : l ≤ mid ∧ mid ≤ r := by omega
    have hcast : ((mid.toNat : ℕ) : ℤ) = mid := Int.toNat_of_nonneg (hl.trans hmid.1)
    simp only [Logged.val_bind]
    set v := arr.getD (fun _ => 0) mid.toNat with hvdef
    by_cases hv : v = x
    · simp only [hv, if_true, Logged.val_pure]
      exact ⟨fun _ => ⟨mid.toNat, by omega, by omega, hv⟩, fun _ => hl.trans hmid.1⟩
    · simp only [hv, if_false]
      by_cases hlt : x < v
      · simp only [hlt, if_true]
        rw [ihlow hl fun i j hij hj => hinc i j hij (by omega)]
        constructor
        · rintro ⟨k, h1, h2, h3⟩
          exact ⟨k, h1, by omega, h3⟩
        · rintro ⟨k, h1, h2, h3⟩
          refine ⟨k, h1, ?_, h3⟩
          -- from the middle on, the elements are at least `v`
          by_contra hk
          rcases Nat.lt_or_ge mid.toNat k with hmk | hmk
          · have := hinc mid.toNat k hmk h2
            omega
          · have : k = mid.toNat := by omega
            subst this
            exact hv h3
      · simp only [hlt, if_false]
        rw [ihhigh (by omega) hinc]
        constructor
        · rintro ⟨k, h1, h2, h3⟩
          exact ⟨k, by omega, h2, h3⟩
        · rintro ⟨k, h1, h2, h3⟩
          refine ⟨k, ?_, h2, h3⟩
          -- up to the middle, the elements are at most `v`
          by_contra hk
          rcases Nat.lt_or_ge k mid.toNat with hmk | hmk
          · have := hinc k mid.toNat hmk (by omega)
            omega
          · have : k = mid.toNat := by omega
            subst this
            exact hv h3
  | case2 l r hlt =>
    simp only [Logged.val_pure]
    constructor
    · intro h
      omega
    · rintro ⟨k, h1, h2, -⟩
      omega

variable {cfg : Config}

theorem search_inTable (h : ProcTable cfg) (lcore_id : ℕ) :
    (uint16BinarySearch cfg.proc_lcore lcore_id 0 (cfg.nb_procs - 1)).Every InTable := by
  have := h.le
  exact uint16BinarySearch_inTable (fun h0 => h.isSome (by omega)) le_rfl (by omega)

theorem search_nonneg_iff (h : ProcTable cfg) (lcore_id : ℕ) :
    0 ≤ (uint16BinarySearch cfg.proc_lcore lcore_id 0 (cfg.nb_procs - 1)).val ↔
      Enabled cfg lcore_id := by
  rw [uint16BinarySearch_nonneg_iff le_rfl fun i j hij hj => h.increasing i j hij (by omega)]
  constructor
  · rintro ⟨k, -, hk, hx⟩
    exact ⟨k, by omega, hx⟩
  · rintro ⟨k, hk, hx⟩
    exact ⟨k, by omega, by omega, hx⟩

/-- The lcores of a port are looked up inside the table.
SOURCE: lib/ff_config.c:1330-1339 -/
theorem checkLcores_inTable (h : ProcTable cfg) (lcores : List ℕ) :
    (checkLcores cfg lcores).Every InTable := by
  induction lcores with
  | nil => exact Logged.every_pure _
  | cons c rest ih =>
    simp only [checkLcores, Logged.every_bind]
    refine ⟨search_inTable h c, ?_⟩
    split
    · exact Logged.every_pure _
    · exact ih

/-- They pass if all are enabled.
SOURCE: lib/ff_config.c:1330-1339 -/
theorem checkLcores_val_iff (h : ProcTable cfg) (lcores : List ℕ) :
    (checkLcores cfg lcores).val = true ↔ ∀ c ∈ lcores, Enabled cfg c := by
  induction lcores with
  | nil => simp [checkLcores]
  | cons c rest ih =>
    simp only [checkLcores, Logged.val_bind, List.forall_mem_cons, ← ih, ← search_nonneg_iff h c]
    split <;> rename_i hlt
    · simp [hlt]
    · simp [not_lt.mp hlt]

end FStack.Analysis
