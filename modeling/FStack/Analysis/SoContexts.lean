import FStack.Model.SoContext
import FStack.Prelude.Monitored

/-!
# The accounts of the socket contexts

A zone is settled when its free contexts and those in use are all there are.  Then a context can be
attached exactly if one is free, and a pass of the F-Stack loop that stops after as many contexts as are in
use has seen all of them.

That zones stay settled, and contexts are released by their last holder, depends on the zone that a process
uses for a context being the zone of this context.  `ScSettled` is what holds of all processes and zones as
long as this is so (`StepSafe`).
-/

set_option autoImplicit false

namespace FStack.Analysis

open FStack.Model FStack.Prelude

/-! ## One zone -/

section Zone

variable {zone zone' : SoZone} {i : ℕ}

/-- The free contexts and those in use are all contexts. -/
def ZoneSettled (zone : SoZone) : Prop := zone.free + zone.used.card = zone.count

theorem mem_used : i ∈ zone.used ↔ i < zone.count ∧ zone.inuse i = true := by
  simp [SoZone.used]

theorem count_pos (zone : SoZone) : 0 < zone.count := by
  obtain ⟨k, -, hk⟩ := zone.count_pow
  rw [hk]
  exact Nat.two_pow_pos k

theorem count_le (zone : SoZone) : zone.count ≤ 32 := by
  obtain ⟨k, hk, heq⟩ := zone.count_pow
  rw [heq]
  exact Nat.pow_le_pow_right (by omega) hk

theorem and_mask (zone : SoZone) (n : ℕ) : n &&& (zone.count - 1) = n % zone.count := by
  obtain ⟨k, -, hk⟩ := zone.count_pow
  rw [hk]
  exact Nat.and_two_pow_sub_one_eq_mod n k

theorem findFree_some {turns start : ℕ} (h : zone.findFree turns start = some i) :
    i < zone.count ∧ zone.inuse i = false := by
  induction turns generalizing start with
  | zero => cases h
  | succ turns ih =>
    unfold SoZone.findFree at h
    dsimp only at h
    split at h
    · rename_i hfree
      cases h
      refine ⟨?_, hfree⟩
      rw [and_mask]
      exact Nat.mod_lt _ (count_pos zone)
    · exact ih h

theorem findFree_none {turns start : ℕ} (h : zone.findFree turns start = none) :
    ∀ t, t < turns → zone.inuse ((zone.idx + (start + t)) % zone.count) = true := by
  induction turns generalizing start with
  | zero => omega
  | succ turns ih =>
    unfold SoZone.findFree at h
    dsimp only at h
    split at h
    · cases h
    · rename_i hused
      rw [and_mask] at hused
      intro t ht
      cases t with
      | zero => exact Bool.eq_true_of_not_eq_false hused
      | succ t =>
        have hrest := ih h t (by omega)
        rwa [show start + 1 + t = start + (t + 1) by omega] at hrest

/-- The search goes around the whole zone. -/
theorem findFree_complete (h : zone.findFree zone.count 0 = none) (hi : i < zone.count) :
    zone.inuse i = true := by
  have hpos := count_pos zone
  have hlt : zone.idx % zone.count < zone.count := Nat.mod_lt _ hpos
  have hall := findFree_none h ((i + (zone.count - zone.idx % zone.count)) % zone.count)
    (Nat.mod_lt _ hpos)
  rw [Nat.zero_add, Nat.add_mod_mod] at hall
  have hsum : (zone.idx + (i + (zone.count - zone.idx % zone.count))) % zone.count = i := by
    rw [← Nat.mod_add_mod]
    have heq : zone.idx % zone.count + (i + (zone.count - zone.idx % zone.count)) = i + zone.count := by
      omega
    rw [heq, Nat.add_mod_right, Nat.mod_eq_of_lt hi]
  rwa [hsum] at hall

/-- The zone after its context `i` is attached. -/
def attachedZone (zone : SoZone) (i : ℕ) : SoZone :=
  { zone with
    inuse := Function.update zone.inuse i true
    refcount := Function.update zone.refcount i 1
    free := zone.free - 1
    idx := i + 1 }

/-- **A settled zone gives a context exactly if one is free.** -/
theorem attach_cases (h : ZoneSettled zone) :
    (zone.free = 0 ∧ zone.attach = none) ∨
    (0 < zone.free ∧ ∃ i, i < zone.count ∧ zone.inuse i = false ∧
      zone.attach = some (i, attachedZone zone i)) := by
  unfold SoZone.attach
  by_cases hfree : zone.free = 0
  · exact Or.inl ⟨hfree, if_pos hfree⟩
  · right
    refine ⟨Nat.pos_of_ne_zero hfree, ?_⟩
    rw [if_neg hfree]
    cases hfind : zone.findFree zone.count 0 with
    | some i =>
      obtain ⟨hi, huse⟩ := findFree_some hfind
      exact ⟨i, hi, huse, rfl⟩
    | none =>
      exfalso
      have hall : zone.used = Finset.range zone.count := by
        ext j
        rw [mem_used, Finset.mem_range]
        exact ⟨fun hj => hj.1, fun hj => ⟨hj, findFree_complete hfind hj⟩⟩
      unfold ZoneSettled at h
      rw [hall, Finset.card_range] at h
      omega

theorem attached_settled (h : ZoneSettled zone) (hpos : 0 < zone.free) (hi : i < zone.count)
    (huse : zone.inuse i = false) : ZoneSettled (attachedZone zone i) := by
  have hused : (attachedZone zone i).used = insert i zone.used := by
    ext j
    rw [Finset.mem_insert, mem_used, mem_used]
    by_cases hj : j = i
    · simp [attachedZone, hj, hi]
    · simp [attachedZone, hj]
  have hnot : i ∉ zone.used := by
    rw [mem_used, huse]
    simp
  unfold ZoneSettled at h ⊢
  rw [hused, Finset.card_insert_of_notMem hnot]
  simp only [attachedZone]
  omega

theorem release_settled (h : ZoneSettled zone) (hi : i < zone.count) :
    ZoneSettled (zone.release i) := by
  unfold SoZone.release
  split
  · rename_i huse
    have hmem : i ∈ zone.used := mem_used.mpr ⟨hi, huse⟩
    have hused : ({ zone with
        inuse := Function.update zone.inuse i false
        free := (zone.free + 1) % 2 ^ 8
        idx := i } : SoZone).used = zone.used.erase i := by
      ext j
      rw [Finset.mem_erase, mem_used, mem_used]
      by_cases hj : j = i
      · simp [hj]
      · simp [hj]
    have hcard := Finset.card_erase_add_one hmem
    have hle := count_le zone
    unfold ZoneSettled at h ⊢
    rw [hused]
    dsimp only
    rw [Nat.mod_eq_of_lt (by omega)]
    omega
  · exact h

theorem length_filter_range (p : ℕ → Bool) (n : ℕ) :
    ((List.range n).filter p).length = ((Finset.range n).filter fun i => p i = true).card := by
  rw [← List.toFinset_card_of_nodup (List.nodup_range.filter p)]
  congr 1
  ext i
  simp

theorem eachLoop_eq {turns start nb : ℕ}
    (hnb : ((List.range' start turns).filter zone.inuse).length = nb) (hpos : 0 < nb) :
    zone.eachLoop turns start nb = (List.range' start turns).filter zone.inuse := by
  induction turns generalizing start nb with
  | zero =>
    rw [← hnb] at hpos
    cases hpos
  | succ turns ih =>
    rw [List.range'_succ, List.filter_cons] at hnb ⊢
    unfold SoZone.eachLoop
    cases huse : zone.inuse start with
    | false =>
      rw [if_pos rfl, if_neg (by simp)]
      rw [huse, if_neg (by simp)] at hnb
      exact ih hnb hpos
    | true =>
      rw [if_neg (by simp), if_pos rfl]
      rw [huse, if_pos rfl, List.length_cons] at hnb
      split
      · rename_i hlast
        have hnil : ((List.range' (start + 1) turns).filter zone.inuse) = [] := by
          rw [← List.length_eq_zero_iff]
          omega
        rw [hnil]
      · rename_i hmore
        rw [ih (by omega) (by omega)]

/-- **A pass sees every context in use** of a settled zone.
SOURCE: adapter/syscall/ff_socket_ops.c:680-713 -/
theorem handleEachContext_eq (h : ZoneSettled zone) :
    zone.handleEachContext = (List.range zone.count).filter zone.inuse := by
  have hlen := length_filter_range zone.inuse zone.count
  unfold ZoneSettled SoZone.used at h
  unfold SoZone.handleEachContext
  dsimp only
  split
  · rename_i hzero
    symm
    rw [← List.length_eq_zero_iff]
    omega
  · rename_i hpos
    rw [List.range_eq_range'] at hlen ⊢
    exact eachLoop_eq (by omega) (by omega)

end Zone

/-! ## Zones and holders -/

section Holders

variable {zones : SoZones} {holds : List (ℕ × ScPtr)} {sc : ScPtr} {pid : ℕ}

/-- How many hold a context. -/
def holders (holds : List (ℕ × ScPtr)) (sc : ScPtr) : ℕ := holds.countP fun h => h.2 = sc

theorem holders_pos : 0 < holders holds sc ↔ ∃ pid, (pid, sc) ∈ holds := by
  simp [holders, List.countP_pos_iff]

theorem holders_cons (sc' : ScPtr) :
    holders ((pid, sc) :: holds) sc' = holders holds sc' + if sc = sc' then 1 else 0 := by
  simp [holders, List.countP_cons]

theorem holders_erase (hmem : (pid, sc) ∈ holds) (sc' : ScPtr) :
    holders (holds.erase (pid, sc)) sc' = holders holds sc' - if sc = sc' then 1 else 0 := by
  simp [holders, List.countP_erase, hmem]

/-- The context is one of its zone. -/
def ScValid (zones : SoZones) (sc : ScPtr) : Prop :=
  zones.Has sc.zone ∧ sc.idx < (zones.zone sc.zone).count

/-- A context is in use as long as someone holds it, and its reference count is the number of its
holders. -/
structure HoldsSettled (zones : SoZones) (holds : List (ℕ × ScPtr)) : Prop where
  settled : ∀ z, zones.Has z → ZoneSettled (zones.zone z)
  valid : ∀ h ∈ holds, ScValid zones h.2
  inuse : ∀ sc, ScValid zones sc → ((zones.zone sc.zone).inuse sc.idx = true ↔ 0 < holders holds sc)
  refs : ∀ sc, 0 < holders holds sc → (zones.zone sc.zone).refcount sc.idx = holders holds sc

theorem set_zone_self (zones : SoZones) (z : ℤ) (zone : SoZone) : (zones.set z zone).zone z = zone := by
  simp [SoZones.set]

theorem set_zone_of_ne (zones : SoZones) {z z' : ℤ} (h : z' ≠ z) (zone : SoZone) :
    (zones.set z zone).zone z' = zones.zone z' := by
  simp [SoZones.set, h]

/-- A zone is replaced by one of the same size. -/
theorem scValid_set {zone : SoZone} {z : ℤ} (hcount : zone.count = (zones.zone z).count) (sc : ScPtr) :
    ScValid (zones.set z zone) sc ↔ ScValid zones sc := by
  unfold ScValid
  by_cases hz : sc.zone = z
  · rw [hz, set_zone_self, hcount]
    rfl
  · rw [set_zone_of_ne zones hz]
    rfl

theorem scPtr_ext_iff {a b : ScPtr} : a = b ↔ a.zone = b.zone ∧ a.idx = b.idx := by
  cases a
  cases b
  simp

/-- INTERNAL: a context that is attached. -/
theorem HoldsSettled.attach (h : HoldsSettled zones holds) (pid : ℕ) {z : ℤ} {i : ℕ} (hz : zones.Has z)
    (hfree : 0 < (zones.zone z).free) (hi : i < (zones.zone z).count)
    (huse : (zones.zone z).inuse i = false) :
    holders holds ⟨z, i⟩ = 0 ∧
      HoldsSettled (zones.set z (attachedZone (zones.zone z) i)) ((pid, ⟨z, i⟩) :: holds) := by
  have hvalid := scValid_set (show (attachedZone (zones.zone z) i).count = (zones.zone z).count from rfl)
  have hnone : holders holds ⟨z, i⟩ = 0 := by
    by_contra hpos
    have huse' := (h.inuse ⟨z, i⟩ ⟨hz, hi⟩).mpr (Nat.pos_of_ne_zero hpos)
    rw [huse] at huse'
    cases huse'
  refine ⟨hnone, ?_, ?_, ?_, ?_⟩
  · intro z' hz'
    by_cases heq : z' = z
    · rw [heq, set_zone_self]
      exact attached_settled (h.settled z hz) hfree hi huse
    · rw [set_zone_of_ne zones heq]
      exact h.settled z' hz'
  · intro hold hmem
    rw [hvalid]
    rcases List.mem_cons.mp hmem with rfl | hmem
    · exact ⟨hz, hi⟩
    · exact h.valid hold hmem
  · intro sc hsc
    rw [hvalid] at hsc
    rw [holders_cons]
    by_cases heq : sc = ⟨z, i⟩
    · subst heq
      rw [set_zone_self, if_pos rfl]
      simp [attachedZone]
    · rw [if_neg (Ne.symm heq), Nat.add_zero, ← h.inuse sc hsc]
      by_cases hzone : sc.zone = z
      · have hidx : sc.idx ≠ i := fun hidx => heq (scPtr_ext_iff.mpr ⟨hzone, hidx⟩)
        rw [hzone, set_zone_self]
        simp [attachedZone, hidx]
      · rw [set_zone_of_ne zones hzone]
  · intro sc hpos
    rw [holders_cons] at hpos ⊢
    by_cases heq : sc = ⟨z, i⟩
    · subst heq
      rw [set_zone_self, if_pos rfl, hnone]
      simp [attachedZone]
    · rw [if_neg (Ne.symm heq), Nat.add_zero] at hpos ⊢
      rw [← h.refs sc hpos]
      by_cases hzone : sc.zone = z
      · have hidx : sc.idx ≠ i := fun hidx => heq (scPtr_ext_iff.mpr ⟨hzone, hidx⟩)
        rw [hzone, set_zone_self]
        simp [attachedZone, hidx]
      · rw [set_zone_of_ne zones hzone]

/-- A change of the reference count of one context. -/
theorem HoldsSettled.setRef (h : HoldsSettled zones holds) {holds' : List (ℕ × ScPtr)} {n : ℕ}
    (hvalid : ∀ h ∈ holds', ScValid zones h.2) (hn : 0 < n) (hsc : holders holds' sc = n)
    (hold : 0 < holders holds sc) (hother : ∀ sc', sc' ≠ sc → holders holds' sc' = holders holds sc') :
    HoldsSettled (zones.set sc.zone { zones.zone sc.zone with
      refcount := Function.update (zones.zone sc.zone).refcount sc.idx n }) holds' := by
  have hcount : ({ zones.zone sc.zone with
      refcount := Function.update (zones.zone sc.zone).refcount sc.idx n } : SoZone).count =
      (zones.zone sc.zone).count := rfl
  have hvalid' := scValid_set hcount
  have hinuse : ∀ sc' : ScPtr, (((zones.set sc.zone { zones.zone sc.zone with
      refcount := Function.update (zones.zone sc.zone).refcount sc.idx n }).zone sc'.zone).inuse sc'.idx) =
      (zones.zone sc'.zone).inuse sc'.idx := by
    intro sc'
    by_cases hzone : sc'.zone = sc.zone
    · rw [hzone, set_zone_self]
    · rw [set_zone_of_ne zones hzone]
  refine ⟨?_, ?_, ?_, ?_⟩
  · intro z hz
    by_cases heq : z = sc.zone
    · rw [heq, set_zone_self]
      exact h.settled sc.zone (heq ▸ hz)
    · rw [set_zone_of_ne zones heq]
      exact h.settled z hz
  · intro hold' hmem
    rw [hvalid']
    exact hvalid hold' hmem
  · intro sc' hsc'
    rw [hvalid'] at hsc'
    rw [hinuse, h.inuse sc' hsc']
    by_cases heq : sc' = sc
    · rw [heq, hsc]
      exact ⟨fun _ => hn, fun _ => hold⟩
    · rw [hother sc' heq]
  · intro sc' hpos
    by_cases heq : sc' = sc
    · rw [heq, set_zone_self, hsc]
      simp
    · rw [hother sc' heq] at hpos ⊢
      rw [← h.refs sc' hpos]
      by_cases hzone : sc'.zone = sc.zone
      · have hidx : sc'.idx ≠ sc.idx := fun hidx => heq (scPtr_ext_iff.mpr ⟨hzone, hidx⟩)
        rw [hzone, set_zone_self]
        simp [hidx]
      · rw [set_zone_of_ne zones hzone]

/-- INTERNAL: a fork makes one holder more. -/
theorem HoldsSettled.addRef (h : HoldsSettled zones holds) {child : ℕ} (hmem : (pid, sc) ∈ holds) :
    HoldsSettled (zones.addRef sc) ((child, sc) :: holds) := by
  have hpos : 0 < holders holds sc := holders_pos.mpr ⟨pid, hmem⟩
  unfold SoZones.addRef
  dsimp only
  apply h.setRef
  · intro hold hin
    rcases List.mem_cons.mp hin with rfl | hin
    · exact h.valid (pid, sc) hmem
    · exact h.valid hold hin
  · exact Nat.succ_pos _
  · rw [holders_cons, if_pos rfl, h.refs sc hpos]
  · exact hpos
  · intro sc' hne
    rw [holders_cons, if_neg (Ne.symm hne), Nat.add_zero]

/-- **A holder detaches**, and the last one releases the context in its zone. -/
theorem HoldsSettled.detach (h : HoldsSettled zones holds) (hmem : (pid, sc) ∈ holds) :
    HoldsSettled (zones.ffDetachSoContext (some sc.zone) (some sc)) (holds.erase (pid, sc)) := by
  have hpos : 0 < holders holds sc := holders_pos.mpr ⟨pid, hmem⟩
  have hrefs := h.refs sc hpos
  have hvalid : ∀ hold ∈ holds.erase (pid, sc), ScValid zones hold.2 :=
    fun hold hin => h.valid hold (List.mem_of_mem_erase hin)
  obtain ⟨hz, hi⟩ := h.valid (pid, sc) hmem
  have hother : ∀ sc', sc' ≠ sc → holders (holds.erase (pid, sc)) sc' = holders holds sc' := by
    intro sc' hne
    rw [holders_erase hmem, if_neg (Ne.symm hne), Nat.sub_zero]
  have hself : holders (holds.erase (pid, sc)) sc = holders holds sc - 1 := by
    rw [holders_erase hmem, if_pos rfl]
  unfold SoZones.ffDetachSoContext
  dsimp only
  split
  · rename_i hmany
    apply h.setRef hvalid _ _ hpos hother
    · omega
    · rw [hself, hrefs]
  · rename_i hlast
    have huse := (h.inuse sc ⟨hz, hi⟩).mpr hpos
    have hzero : holders (holds.erase (pid, sc)) sc = 0 := by omega
    have hrel : (zones.zone sc.zone).release sc.idx = { zones.zone sc.zone with
        inuse := Function.update (zones.zone sc.zone).inuse sc.idx false
        free := ((zones.zone sc.zone).free + 1) % 2 ^ 8
        idx := sc.idx } := if_pos huse
    have hcount : ((zones.zone sc.zone).release sc.idx).count = (zones.zone sc.zone).count := by
      rw [hrel]
    have hvalid' := scValid_set hcount
    refine ⟨?_, ?_, ?_, ?_⟩
    · intro z hz'
      by_cases heq : z = sc.zone
      · rw [heq, set_zone_self]
        exact release_settled (h.settled sc.zone hz) hi
      · rw [set_zone_of_ne zones heq]
        exact h.settled z hz'
    · intro hold hin
      rw [hvalid']
      exact hvalid hold hin
    · intro sc' hsc'
      rw [hvalid'] at hsc'
      by_cases heq : sc' = sc
      · rw [heq, set_zone_self, hrel, hzero]
        simp
      · rw [hother sc' heq, ← h.inuse sc' hsc']
        by_cases hzone : sc'.zone = sc.zone
        · have hidx : sc'.idx ≠ sc.idx := fun hidx => heq (scPtr_ext_iff.mpr ⟨hzone, hidx⟩)
          rw [hzone, set_zone_self, hrel]
          simp [hidx]
        · rw [set_zone_of_ne zones hzone]
    · intro sc' hpos'
      have heq : sc' ≠ sc := by
        rintro rfl
        omega
      rw [hother sc' heq] at hpos' ⊢
      rw [← h.refs sc' hpos']
      by_cases hzone : sc'.zone = sc.zone
      · rw [hzone, set_zone_self, hrel]
      · rw [set_zone_of_ne zones hzone]

end Holders

/-! ## Processes -/

section Processes

variable {multi : Bool} {s : ScSystem} {pid : ℕ} {p : AppProc}

/-- What holds of a process: it knows zones that there are, under their numbers, and without `FF_MULTI_SC`
it holds its context, which is in its zone. -/
structure ProcSettled (multi : Bool) (zones : SoZones) (holds : List (ℕ × ScPtr)) (pid : ℕ) (p : AppProc) :
    Prop where
  zone : ∀ z, p.ff_so_zone = some z → zones.Has z
  table : ∀ i z, p.ff_so_zones i = some z → z = i ∧ zones.Has z
  single : multi = false → ∀ sc, p.sc = some sc → (pid, sc) ∈ holds ∧ p.ff_so_zone = some sc.zone

/-- A context that is detached is held, and the zone used for it is its own. -/
def DetachOwn (holds : List (ℕ × ScPtr)) (pid : ℕ) (d : Option ℤ × Option ScPtr) : Prop :=
  ∀ sc ∈ d.2, (pid, sc) ∈ holds ∧ d.1 = some sc.zone

/-- What holds of all processes, zones and contexts. -/
structure ScSettled (multi : Bool) (s : ScSystem) : Prop extends HoldsSettled s.zones s.holds where
  procs : ∀ pid p, s.procs pid = some p → ProcSettled multi s.zones s.holds pid p
  exits : multi = false → ∀ pid, s.exits pid = [] ∨ ∃ d, s.exits pid = [d] ∧ DetachOwn s.holds pid d
  gone : ∀ pid, (s.procs pid).isSome = true → s.exits pid = []

/-- A process is not affected by others that come to hold a context or no longer hold it. -/
theorem ProcSettled.congr {zones zones' : SoZones} {holds holds' : List (ℕ × ScPtr)}
    (h : ProcSettled multi zones holds pid p) (hzones : zones'.nb_zones = zones.nb_zones)
    (hholds : ∀ sc, (pid, sc) ∈ holds → (pid, sc) ∈ holds') : ProcSettled multi zones' holds' pid p := by
  have hhas : ∀ z, zones'.Has z ↔ zones.Has z := by
    intro z
    unfold SoZones.Has
    rw [hzones]
  refine ⟨?_, ?_, ?_⟩
  · intro z hz
    rw [hhas]
    exact h.zone z hz
  · intro i z hz
    rw [hhas]
    exact h.table i z hz
  · intro hm sc hsc
    obtain ⟨hmem, hzone⟩ := h.single hm sc hsc
    exact ⟨hholds sc hmem, hzone⟩

/-- The same for a process that exits. -/
theorem exits_congr {exits : List (Option ℤ × Option ScPtr)} {holds holds' : List (ℕ × ScPtr)}
    (h : exits = [] ∨ ∃ d, exits = [d] ∧ DetachOwn holds pid d)
    (hholds : ∀ sc, (pid, sc) ∈ holds → (pid, sc) ∈ holds') :
    exits = [] ∨ ∃ d, exits = [d] ∧ DetachOwn holds' pid d := by
  rcases h with hnil | ⟨d, hd, hown⟩
  · exact Or.inl hnil
  · refine Or.inr ⟨d, hd, ?_⟩
    intro sc hsc
    exact ⟨hholds sc (hown sc hsc).1, (hown sc hsc).2⟩

/-- The index is one of the tables `scs` and `ff_so_zones`. -/
def InScTable (i : ℤ) : Prop := 0 ≤ i ∧ i < SOCKET_OPS_CONTEXT_MAX_NUM

instance (i : ℤ) : Decidable (InScTable i) := inferInstanceAs (Decidable (_ ∧ _))

instance (holds : List (ℕ × ScPtr)) (pid : ℕ) (d : Option ℤ × Option ScPtr) :
    Decidable (DetachOwn holds pid d) :=
  inferInstanceAs (Decidable (∀ sc ∈ d.2, _))

/-- A step uses the tables within their bounds, and for a context the zone that it is in; what a process
gives to a child or detaches is its own. -/
def StepSafe (multi : Bool) (s : ScSystem) : ScStep → Prop
  | .start _ _ => True
  | .attach pid idx => ∀ p ∈ s.procs pid,
    if multi then InScTable idx ∧ InScTable p.worker_id
    else p.ff_so_zone = none ∨ p.ff_so_zone = some idx
  | .fork pid _ => ∀ p ∈ s.procs pid, multi = true →
    InScTable p.current_worker_id ∧ ∀ sc ∈ (p.scs p.current_worker_id).sc, (pid, sc) ∈ s.holds
  | .exit pid => ∀ p ∈ s.procs pid, multi = true → p.current_worker_id = p.worker_id →
    p.worker_id ≤ SOCKET_OPS_CONTEXT_MAX_NUM
  | .detach pid => multi = true → ∀ d ∈ (s.exits pid).head?, DetachOwn s.holds pid d

instance (multi : Bool) (s : ScSystem) : ∀ a, Decidable (StepSafe multi s a)
  | .start _ _ => inferInstanceAs (Decidable True)
  | .attach pid _ => inferInstanceAs (Decidable (∀ p ∈ s.procs pid, _))
  | .fork pid _ => inferInstanceAs (Decidable (∀ p ∈ s.procs pid, _))
  | .exit pid => inferInstanceAs (Decidable (∀ p ∈ s.procs pid, _))
  | .detach pid => inferInstanceAs (Decidable (_ → ∀ d ∈ (s.exits pid).head?, _))

/-- All zones are settled, a context is in use exactly if someone holds it, and a pass sees every context
in use. -/
structure ZonesRight (s : ScSystem) : Prop where
  settled : ∀ z, s.zones.Has z → (s.zones.zone z).free + (s.zones.zone z).used.card = (s.zones.zone z).count
  inuse : ∀ sc, ScValid s.zones sc →
    ((s.zones.zone sc.zone).inuse sc.idx = true ↔ ∃ pid, (pid, sc) ∈ s.holds)
  passes : ∀ z, s.zones.Has z → ∀ i, i < (s.zones.zone z).count →
    (s.zones.zone z).inuse i = true → i ∈ (s.zones.zone z).handleEachContext

/-- An attach succeeds exactly if the zone of its instance has a free context, and gives one of this zone
that nobody holds. -/
def AttachRight (multi : Bool) (s : ScSystem) (p : AppProc) (idx : ℤ) : Prop :=
  ((s.zones.ffAttachSoContext multi p idx).2.2.isSome = true ↔
    s.zones.Has idx ∧ 0 < (s.zones.zone idx).free) ∧
  ∀ sc, (s.zones.ffAttachSoContext multi p idx).2.2 = some sc →
    sc.zone = idx ∧ ∀ q, (q, sc) ∉ s.holds

/-- A step answers rightly and leaves all zones right. -/
def StepRight (multi : Bool) (s : ScSystem) (a : ScStep) : Prop :=
  ZonesRight (s.step multi a) ∧
  match a with
  | .attach pid idx => ∀ p, s.procs pid = some p → AttachRight multi s p idx
  | _ => True

theorem ScSettled.right (h : ScSettled multi s) : ZonesRight s := by
  refine ⟨h.settled, ?_, ?_⟩
  · intro sc hsc
    rw [h.inuse sc hsc, holders_pos]
  · intro z hz i hi huse
    rw [handleEachContext_eq (h.settled z hz), List.mem_filter, List.mem_range]
    exact ⟨hi, huse⟩

/-- INTERNAL: the zone that an attach uses is that of its instance. -/
theorem findZone_cases (hp : ProcSettled multi s.zones s.holds pid p) {idx : ℤ}
    (hsafe : multi = false → p.ff_so_zone = none ∨ p.ff_so_zone = some idx) :
    ((s.zones.findZone multi p idx).ff_so_zone = if s.zones.Has idx then some idx else none) ∧
      ∀ i z, (s.zones.findZone multi p idx).ff_so_zones i = some z → z = i ∧ s.zones.Has z := by
  unfold SoZones.findZone
  dsimp only
  cases multi with
  | false =>
    rw [if_neg (by simp)]
    rcases hsafe rfl with hnone | hsome
    · rw [hnone]
      dsimp only
      split
      · exact ⟨rfl, hp.table⟩
      · exact ⟨hnone, hp.table⟩
    · rw [hsome]
      dsimp only
      rw [if_pos (hp.zone idx hsome)]
      exact ⟨hsome, hp.table⟩
  | true =>
    rw [if_pos rfl]
    dsimp only
    cases hentry : p.ff_so_zones idx with
    | some z =>
      obtain ⟨rfl, hz⟩ := hp.table idx z hentry
      dsimp only
      rw [if_pos hz]
      exact ⟨rfl, hp.table⟩
    | none =>
      dsimp only
      split
      · rename_i hz
        refine ⟨rfl, ?_⟩
        intro i z hiz
        rw [if_pos rfl] at hiz
        dsimp only at hiz
        by_cases heq : i = idx
        · subst heq
          rw [Function.update_self] at hiz
          cases hiz
          exact ⟨rfl, hz⟩
        · rw [Function.update_of_ne heq] at hiz
          exact hp.table i z hiz
      · exact ⟨rfl, hp.table⟩

/-- **An attach** by a process that uses the zone of the instance. -/
theorem ffAttachSoContext_cases (h : ScSettled multi s) (hp : ProcSettled multi s.zones s.holds pid p) {idx : ℤ}
    (hsafe : multi = false → p.ff_so_zone = none ∨ p.ff_so_zone = some idx) :
    (¬ (s.zones.Has idx ∧ 0 < (s.zones.zone idx).free) ∧
      s.zones.ffAttachSoContext multi p idx = (s.zones, s.zones.findZone multi p idx, none)) ∨
    (∃ i, s.zones.Has idx ∧ 0 < (s.zones.zone idx).free ∧ i < (s.zones.zone idx).count ∧
      (s.zones.zone idx).inuse i = false ∧ (s.zones.findZone multi p idx).ff_so_zone = some idx ∧
      s.zones.ffAttachSoContext multi p idx =
        (s.zones.set idx (attachedZone (s.zones.zone idx) i), s.zones.findZone multi p idx,
          some ⟨idx, i⟩)) := by
  obtain ⟨hzone, -⟩ := findZone_cases hp hsafe
  unfold SoZones.ffAttachSoContext
  dsimp only
  rw [hzone]
  by_cases hz : s.zones.Has idx
  · rw [if_pos hz]
    dsimp only
    rcases attach_cases (h.settled idx hz) with ⟨hfull, heq⟩ | ⟨hfree, i, hi, huse, heq⟩
    · rw [heq]
      exact Or.inl ⟨fun hboth => absurd hfull (Nat.pos_iff_ne_zero.mp hboth.2), rfl⟩
    · rw [heq]
      exact Or.inr ⟨i, hz, hfree, hi, huse, rfl, rfl⟩
  · rw [if_neg hz]
    exact Or.inl ⟨fun hboth => hz hboth.1, rfl⟩

theorem attachRight (h : ScSettled multi s) (hp : ProcSettled multi s.zones s.holds pid p) {idx : ℤ}
    (hsafe : multi = false → p.ff_so_zone = none ∨ p.ff_so_zone = some idx) :
    AttachRight multi s p idx := by
  unfold AttachRight
  rcases ffAttachSoContext_cases h hp hsafe with ⟨hnot, heq⟩ | ⟨i, hz, hfree, hi, huse, -, heq⟩
  · rw [heq]
    refine ⟨?_, ?_⟩
    · constructor
      · intro hsome
        cases hsome
      · intro hboth
        exact absurd hboth hnot
    · intro sc hsc
      cases hsc
  · rw [heq]
    refine ⟨⟨fun _ => ⟨hz, hfree⟩, fun _ => rfl⟩, ?_⟩
    intro sc hsc
    cases hsc
    refine ⟨rfl, ?_⟩
    intro q hq
    have hnone := (h.toHoldsSettled.attach pid hz hfree hi huse).1
    have hpos := holders_pos.mpr ⟨q, hq⟩
    omega

theorem ScSettled.attach (h : ScSettled multi s) (hproc : s.procs pid = some p) {idx : ℤ}
    (hsafe : multi = false → p.ff_so_zone = none ∨ p.ff_so_zone = some idx) :
    ScSettled multi (s.attach multi pid p idx) := by
  have hp := h.procs pid p hproc
  have hgone : ∀ q r, (Function.update s.procs pid (some r) q).isSome = true → s.exits q = [] := by
    intro q r hq
    by_cases hqp : q = pid
    · rw [hqp]
      apply h.gone
      rw [hproc]
      rfl
    · rw [Function.update_of_ne hqp] at hq
      exact h.gone q hq
  obtain ⟨hzone, htable⟩ := findZone_cases hp hsafe
  have hhas : ∀ z, (s.zones.findZone multi p idx).ff_so_zone = some z → s.zones.Has z := by
    intro z hz
    rw [hzone] at hz
    split at hz
    · cases hz
      assumption
    · cases hz
  unfold ScSystem.attach AppProc.ffAdapterInit
  rcases ffAttachSoContext_cases h hp hsafe with ⟨-, heq⟩ | ⟨i, hz, hfree, hi, huse, hq, heq⟩
  · rw [heq]
    refine ⟨h.toHoldsSettled, ?_, h.exits, fun q => hgone q _⟩
    intro q r hr
    dsimp only at hr
    by_cases hqp : q = pid
    · subst hqp
      rw [Function.update_self] at hr
      cases hr
      exact ⟨hhas, htable, fun _ sc hsc => by cases hsc⟩
    · rw [Function.update_of_ne hqp] at hr
      exact h.procs q r hr
  · rw [heq]
    refine ⟨(h.toHoldsSettled.attach pid hz hfree hi huse).2, ?_, ?_, fun q => hgone q _⟩
    · intro q r hr
      dsimp only at hr
      by_cases hqp : q = pid
      · subst hqp
        rw [Function.update_self] at hr
        cases hr
        refine ⟨hhas, htable, ?_⟩
        intro _ sc hsc
        cases hsc
        exact ⟨List.mem_cons_self, hq⟩
      · rw [Function.update_of_ne hqp] at hr
        exact (h.procs q r hr).congr rfl fun sc hsc => List.mem_cons_of_mem _ hsc
    · intro hm q
      exact exits_congr (h.exits hm q) fun sc hsc => List.mem_cons_of_mem _ hsc

/-- The parent and the child of a fork know the same zones and have the same context. -/
theorem ProcSettled.beforeFork {zones zones' : SoZones} {holds holds' : List (ℕ × ScPtr)} {q : ℕ}
    {r : AppProc} (hp : ProcSettled multi zones holds pid p) (hnb : zones'.nb_zones = zones.nb_zones)
    (hz : r.ff_so_zone = (p.beforeFork multi).ff_so_zone) (ht : r.ff_so_zones = p.ff_so_zones)
    (hsc : r.sc = (p.beforeFork multi).sc)
    (hin : ∀ sc, (p.beforeFork multi).sc = some sc → (q, sc) ∈ holds') :
    ProcSettled multi zones' holds' q r := by
  have hhas : ∀ z, zones.Has z → zones'.Has z := by
    intro z hz'
    unfold SoZones.Has at hz' ⊢
    rwa [hnb]
  cases multi with
  | false =>
    refine ⟨?_, ?_, ?_⟩
    · intro z hzz
      rw [hz] at hzz
      exact hhas z (hp.zone z hzz)
    · intro i z hiz
      rw [ht] at hiz
      exact ⟨(hp.table i z hiz).1, hhas z (hp.table i z hiz).2⟩
    · intro hm sc hr
      rw [hsc] at hr
      refine ⟨hin sc hr, ?_⟩
      rw [hz]
      exact (hp.single hm sc hr).2
  | true =>
    refine ⟨?_, ?_, ?_⟩
    · intro z hzz
      rw [hz] at hzz
      exact hhas z (hp.table p.current_worker_id z hzz).2
    · intro i z hiz
      rw [ht] at hiz
      exact ⟨(hp.table i z hiz).1, hhas z (hp.table i z hiz).2⟩
    · intro hm
      cases hm

theorem beforeFork_zones (multi : Bool) (p : AppProc) :
    (p.beforeFork multi).ff_so_zones = p.ff_so_zones := by
  unfold AppProc.beforeFork
  split
  · rfl
  · rfl

theorem afterFork_eq (multi : Bool) (p : AppProc) :
    (p.afterFork multi).ff_so_zone = p.ff_so_zone ∧
      (p.afterFork multi).ff_so_zones = p.ff_so_zones ∧ (p.afterFork multi).sc = p.sc := by
  unfold AppProc.afterFork
  split
  · exact ⟨rfl, rfl, rfl⟩
  · exact ⟨rfl, rfl, rfl⟩

/-- INTERNAL: a fork by a process that holds the context it gives to the child. -/
theorem ScSettled.fork (h : ScSettled multi s) (hproc : s.procs pid = some p) {child : ℕ}
    (hfresh : s.exits child = [])
    (hheld : ∀ sc, (p.beforeFork multi).sc = some sc → (pid, sc) ∈ s.holds) :
    ScSettled multi (s.fork multi pid child p) := by
  have hp := h.procs pid p hproc
  have hnb : (s.fork multi pid child p).zones.nb_zones = s.zones.nb_zones := by
    unfold ScSystem.fork
    dsimp only
    split
    · rfl
    · rfl
  have hmore : ∀ q sc, (q, sc) ∈ s.holds → (q, sc) ∈ (s.fork multi pid child p).holds := by
    intro q sc hin
    exact List.mem_append_right _ hin
  have hchild : ∀ sc, (p.beforeFork multi).sc = some sc →
      (child, sc) ∈ (s.fork multi pid child p).holds := by
    intro sc hsc
    apply List.mem_append_left
    rw [hsc]
    exact List.mem_singleton_self _
  have hholds : HoldsSettled (s.fork multi pid child p).zones (s.fork multi pid child p).holds := by
    unfold ScSystem.fork
    dsimp only
    cases hsc : (p.beforeFork multi).sc with
    | none => exact h.toHoldsSettled
    | some sc => exact h.toHoldsSettled.addRef (hheld sc hsc)
  refine ⟨hholds, ?_, ?_, ?_⟩
  · intro q r hr
    by_cases hqc : q = child
    · have hr' : r = p.beforeFork multi := by
        rw [hqc] at hr
        exact Option.some.inj (hr.symm.trans (Function.update_self ..))
      subst hr'
      subst hqc
      exact hp.beforeFork hnb rfl (beforeFork_zones multi p) rfl hchild
    · by_cases hqp : q = pid
      · have hr' : r = (p.beforeFork multi).afterFork multi := by
          apply Option.some.inj
          rw [← hr, hqp]
          exact (Function.update_of_ne (hqp ▸ hqc) ..).trans (Function.update_self ..)
        subst hr'
        subst hqp
        obtain ⟨hz, ht, hc⟩ := afterFork_eq multi (p.beforeFork multi)
        apply hp.beforeFork hnb hz (ht.trans (beforeFork_zones multi p)) hc
        intro sc hsc
        exact hmore q sc (hheld sc hsc)
      · have hr' : s.procs q = some r := by
          rw [← hr]
          symm
          exact (Function.update_of_ne hqc ..).trans (Function.update_of_ne hqp ..)
        exact (h.procs q r hr').congr hnb (hmore q)
  · intro hm q
    exact exits_congr (h.exits hm q) (hmore q)
  · intro q hq
    by_cases hqc : q = child
    · rw [hqc]
      exact hfresh
    · by_cases hqp : q = pid
      · rw [hqp]
        apply h.gone
        rw [hproc]
        rfl
      · apply h.gone
        rw [← hq]
        congr 1
        symm
        exact (Function.update_of_ne hqc ..).trans (Function.update_of_ne hqp ..)

/-- INTERNAL: a process detaches its own context. -/
theorem ScSettled.detach (h : ScSettled multi s) {d : Option ℤ × Option ScPtr}
    {ds : List (Option ℤ × Option ScPtr)} (hexits : s.exits pid = d :: ds)
    (hown : DetachOwn s.holds pid d) :
    ScSettled multi { s.detach pid d with exits := Function.update s.exits pid ds } := by
  have hnb : (s.detach pid d).zones.nb_zones = s.zones.nb_zones := by
    unfold ScSystem.detach SoZones.ffDetachSoContext
    dsimp only
    split
    · split
      · rfl
      · rfl
    · rfl
  have hother : ∀ q sc, q ≠ pid → (q, sc) ∈ s.holds → (q, sc) ∈ (s.detach pid d).holds := by
    intro q sc hne hin
    unfold ScSystem.detach
    dsimp only
    split
    · exact hin
    · apply (List.mem_erase_of_ne _).mpr hin
      intro heq
      exact hne (Prod.mk.inj heq).1
  have hholds : HoldsSettled (s.detach pid d).zones (s.detach pid d).holds := by
    obtain ⟨z, dsc⟩ := d
    unfold ScSystem.detach
    dsimp only
    cases dsc with
    | none =>
      have hsame : s.zones.ffDetachSoContext z none = s.zones := by
        cases z with
        | none => rfl
        | some z => rfl
      rw [hsame]
      exact h.toHoldsSettled
    | some sc =>
      obtain ⟨hmem, hz⟩ := hown sc rfl
      dsimp only at hz
      subst hz
      exact h.toHoldsSettled.detach hmem
  have hthere : ∀ q, (s.procs q).isSome = true → q ≠ pid := by
    rintro q hq rfl
    have hnil := h.gone q hq
    rw [hexits] at hnil
    cases hnil
  refine ⟨hholds, ?_, ?_, ?_⟩
  · intro q r hr
    have hr' : s.procs q = some r := hr
    have hne : q ≠ pid := hthere q (by rw [hr']; rfl)
    exact (h.procs q r hr).congr hnb fun sc hin => hother q sc hne hin
  · intro hm q
    dsimp only
    by_cases hqp : q = pid
    · subst hqp
      rw [Function.update_self]
      left
      rcases h.exits hm q with hnil | ⟨d', hd', -⟩
      · rw [hexits] at hnil
        cases hnil
      · rw [hexits] at hd'
        cases hd'
        rfl
    · rw [Function.update_of_ne hqp]
      exact exits_congr (h.exits hm q) fun sc hin => hother q sc hqp hin
  · intro q hq
    have hne : q ≠ pid := hthere q hq
    dsimp only
    rw [Function.update_of_ne hne]
    exact h.gone q hq

/-- A process exits. -/
theorem ScSettled.exit (h : ScSettled multi s) (hproc : s.procs pid = some p) :
    ScSettled multi { s with
      procs := Function.update s.procs pid none
      exits := Function.update s.exits pid (p.exitDetaches multi) } := by
  refine ⟨h.toHoldsSettled, ?_, ?_, ?_⟩
  · intro q r hr
    dsimp only at hr
    by_cases hqp : q = pid
    · rw [hqp, Function.update_self] at hr
      cases hr
    · rw [Function.update_of_ne hqp] at hr
      exact h.procs q r hr
  · intro hm q
    dsimp only
    by_cases hqp : q = pid
    · subst hqp
      subst hm
      rw [Function.update_self]
      right
      exact ⟨(p.ff_so_zone, p.sc), rfl, (h.procs q p hproc).single rfl⟩
    · rw [Function.update_of_ne hqp]
      exact h.exits hm q
  · intro q hq
    dsimp only at hq ⊢
    by_cases hqp : q = pid
    · rw [hqp, Function.update_self] at hq
      cases hq
    · rw [Function.update_of_ne hqp] at hq ⊢
      exact h.gone q hq

/-- A program is started. -/
theorem ScSettled.start (h : ScSettled multi s) (worker_id : ℤ) (hfresh : s.exits pid = []) :
    ScSettled multi { s with
      procs := Function.update s.procs pid (some { worker_id := worker_id }) } := by
  refine ⟨h.toHoldsSettled, ?_, h.exits, ?_⟩
  · intro q r hr
    dsimp only at hr
    by_cases hqp : q = pid
    · rw [hqp, Function.update_self] at hr
      cases hr
      refine ⟨?_, ?_, ?_⟩
      · intro z hz
        cases hz
      · intro i z hz
        cases hz
      · intro _ sc hsc
        cases hsc
    · rw [Function.update_of_ne hqp] at hr
      exact h.procs q r hr
  · intro q hq
    dsimp only at hq ⊢
    by_cases hqp : q = pid
    · rw [hqp]
      exact hfresh
    · rw [Function.update_of_ne hqp] at hq
      exact h.gone q hq

theorem exits_of_not_taken {s : ScSystem} {pid : ℕ} (h : ¬ s.taken pid = true) : s.exits pid = [] := by
  unfold ScSystem.taken at h
  simp only [Bool.or_eq_true, Bool.not_eq_true', not_or, Bool.not_eq_false, List.isEmpty_iff] at h
  exact h.2

/-- INTERNAL: a safe step keeps the processes, zones and contexts settled. -/
theorem ScSettled.step (h : ScSettled multi s) {a : ScStep} (hsafe : StepSafe multi s a) :
    ScSettled multi (s.step multi a) := by
  cases a with
  | start pid worker_id =>
    unfold ScSystem.step
    dsimp only
    split
    · exact h
    · rename_i hnot
      exact h.start worker_id (exits_of_not_taken hnot)
  | attach pid idx =>
    unfold ScSystem.step
    dsimp only
    cases hproc : s.procs pid with
    | none => exact h
    | some p =>
      apply h.attach hproc
      rintro rfl
      exact hsafe p hproc
  | fork pid child =>
    unfold ScSystem.step
    dsimp only
    cases hproc : s.procs pid with
    | none => exact h
    | some p =>
      dsimp only
      split
      · exact h
      · rename_i hnot
        apply h.fork hproc (exits_of_not_taken hnot)
        intro sc hsc
        cases multi with
        | false => exact ((h.procs pid p hproc).single rfl sc hsc).1
        | true => exact (hsafe p hproc rfl).2 sc hsc
  | exit pid =>
    unfold ScSystem.step
    dsimp only
    cases hproc : s.procs pid with
    | none => exact h
    | some p => exact h.exit hproc
  | detach pid =>
    unfold ScSystem.step
    dsimp only
    cases hexits : s.exits pid with
    | nil => exact h
    | cons d ds =>
      apply h.detach hexits
      cases multi with
      | false =>
        rcases h.exits rfl pid with hnil | ⟨d', hd', hown⟩
        · rw [hexits] at hnil
          cases hnil
        · rw [hexits] at hd'
          cases hd'
          exact hown
      | true =>
        apply hsafe rfl d
        rw [hexits]
        rfl

/-- At the start no context is in use. -/
theorem ScSettled.init (multi : Bool) (k : ℕ) (hk : k ≤ 5) (nb_zones : ℤ) :
    ScSettled multi (ScSystem.init k hk nb_zones) := by
  refine ⟨⟨?_, ?_, ?_, ?_⟩, ?_, ?_, ?_⟩
  · intro z _
    simp [ZoneSettled, ScSystem.init, SoZone.create, SoZone.used]
  · intro hold hin
    cases hin
  · intro sc _
    simp [ScSystem.init, SoZone.create, holders]
  · intro sc hpos
    simp [ScSystem.init, holders] at hpos
  · intro pid p hp
    cases hp
  · intro _ pid
    exact Or.inl rfl
  · intro pid _
    rfl

/-- **The contexts of the adapter**.  In a run in which every step uses the tables within their
bounds and for a context the zone that it is in, and in which a process gives away and detaches its own
contexts only, every zone stays settled, an attach succeeds exactly if its zone has a free context and gives
one that nobody holds, a context is released when its last holder detaches it, and a pass sees every context
in use.
SOURCE: adapter/syscall/ff_so_zone.c:159-264, ff_hook_syscall.c:2461-2531, 3166-3195,
ff_socket_ops.c:680-735 -/
theorem contexts_allocated (multi : Bool) (k : ℕ) (hk : k ≤ 5) (nb_zones : ℤ) (as : List ScStep)
    (hsafe : AllSteps (ScSystem.step multi) (StepSafe multi) (ScSystem.init k hk nb_zones) as) :
    AllSteps (ScSystem.step multi) (StepRight multi) (ScSystem.init k hk nb_zones) as := by
  have hkeep : ∀ s a, ScSettled multi s → StepSafe multi s a → ScSettled multi (s.step multi a) :=
    fun s a h hsafe => h.step hsafe
  apply AllSteps.imp hkeep _ (ScSettled.init multi k hk nb_zones) hsafe
  intro s a h hsafe
  refine ⟨(h.step hsafe).right, ?_⟩
  cases a with
  | attach pid idx =>
    intro p hproc
    apply attachRight h (h.procs pid p hproc)
    rintro rfl
    exact hsafe p hproc
  | start pid worker_id => trivial
  | fork pid child => trivial
  | exit pid => trivial
  | detach pid => trivial

/-- The life of a parent and one worker in the `FF_MULTI_SC` build. -/
def oneWorker : List ScStep :=
  [.start 1 0, .attach 1 0, .fork 1 2, .exit 2, .detach 2, .exit 1, .detach 1]

theorem contexts_allocated_one_worker :
    AllSteps (ScSystem.step true) (StepSafe true) (ScSystem.init 1 (by decide) 1) oneWorker ∧
      AllSteps (ScSystem.step true) (StepRight true) (ScSystem.init 1 (by decide) 1) oneWorker :=
  have hsafe : AllSteps (ScSystem.step true) (StepSafe true) (ScSystem.init 1 (by decide) 1) oneWorker := by
    decide
  ⟨hsafe, contexts_allocated true 1 (by decide) 1 oneWorker hsafe⟩

/-- Two workers of one instance: the second context is in the zone 0, and is looked for under 1. -/
def twoWorkers : List ScStep :=
  [.start 1 0, .attach 1 0, .attach 1 0, .fork 1 2, .fork 1 3, .exit 3, .detach 3, .exit 1, .detach 1,
    .detach 1]

def afterTwoWorkers : ScSystem :=
  twoWorkers.foldl (ScSystem.step true) (ScSystem.init 1 (by decide) 1)

/-- The second context stays in use when nobody holds it any longer. -/
theorem second_context_leaks :
    ¬ AllSteps (ScSystem.step true) (StepRight true) (ScSystem.init 1 (by decide) 1) twoWorkers := by
  rintro ⟨-, -, -, -, -, -, -, -, -, ⟨hright, -⟩, -⟩
  have hvalid : ScValid afterTwoWorkers.zones ⟨0, 1⟩ := by
    unfold ScValid
    decide
  have huse : (afterTwoWorkers.zones.zone 0).inuse 1 = true := by
    decide
  have hholds : afterTwoWorkers.holds = [(2, ⟨0, 0⟩)] := by
    decide
  obtain ⟨pid, hmem⟩ := (hright.inuse ⟨0, 1⟩ hvalid).mp huse
  have hmem' : (pid, (⟨0, 1⟩ : ScPtr)) ∈ afterTwoWorkers.holds := hmem
  rw [hholds] at hmem'
  simp at hmem'

end Processes

end FStack.Analysis
