import FStack.Analysis.Toeplitz
import FStack.Model.RssTable

/-!
# The port table is a map

After `ff_rss_tbl_init` a lookup finds exactly the entries that were inserted, whatever
the collisions, and what it finds is the list of the ports that pass the RSS check.
The two levels of the table are both instances of `Prelude.Probing`: a slot's key is its
remote address and port, an inner slot's key its local address, and a slot whose address
is "any" is free.

The list is short by one port in one case.  The counters have 16 bits, so when all 65536
ports pass the check the last one is left out.
-/

set_option autoImplicit false

namespace FStack.Analysis

open FStack.Model FStack.Prelude

variable {ports : List ℕ} {i' : Fin 16} {sport : UInt16}
variable {check : ℕ → Bool} {j' : Fin 4} {cfgs : List RssTblCfg}

/-- The ports that an entry lists: those that pass the check, at most 65535 of them. -/
def availablePorts (check : ℕ → Bool) : List ℕ :=
  ((List.range FF_RSS_TBL_MAX_DPORT).filter check).take 65535

theorem availablePorts_sorted (check : ℕ → Bool) : (availablePorts check).Pairwise (· < ·) := by
  apply List.Pairwise.sublist (List.take_sublist 65535 _)
  apply List.Pairwise.sublist List.filter_sublist
  exact List.pairwise_lt_range

/-- When some port fails the check the list is complete. -/
theorem availablePorts_of_fails {q : ℕ} (hq : q < FF_RSS_TBL_MAX_DPORT) (hfail : check q = false) :
    availablePorts check = (List.range FF_RSS_TBL_MAX_DPORT).filter check := by
  apply List.take_of_length_le
  have hlt : ((List.range FF_RSS_TBL_MAX_DPORT).filter check).length <
      (List.range FF_RSS_TBL_MAX_DPORT).length := by
    rw [List.length_filter_lt_length_iff_exists]
    exact ⟨q, List.mem_range.mpr hq, by simp [hfail]⟩
  rw [List.length_range] at hlt
  exact Nat.le_of_lt_succ hlt

/-- When every port passes the check port 65535 is left out. -/
theorem availablePorts_of_all (hall : ∀ q < FF_RSS_TBL_MAX_DPORT, check q = true) :
    availablePorts check = List.range 65535 := by
  have hfilter : (List.range FF_RSS_TBL_MAX_DPORT).filter check = List.range FF_RSS_TBL_MAX_DPORT := by
    rw [List.filter_eq_self]
    intro q hq
    exact hall q (List.mem_range.mp hq)
  rw [availablePorts, hfilter, List.take_range]
  rfl

theorem mem_availablePorts_iff (check : ℕ → Bool) (p : ℕ) :
    p ∈ availablePorts check ↔
      p < 65536 ∧ check p = true ∧ (p = 65535 → ∃ q < 65535, check q = false) := by
  by_cases hall : ∀ q < FF_RSS_TBL_MAX_DPORT, check q = true
  · rw [availablePorts_of_all hall, List.mem_range]
    constructor
    · intro hp
      exact ⟨by omega, hall p (Nat.lt_succ_of_lt hp), by omega⟩
    · rintro ⟨hp, -, hlast⟩
      by_contra hge
      obtain ⟨q, hq, hfail⟩ := hlast (by omega)
      rw [hall q (Nat.lt_succ_of_lt hq)] at hfail
      cases hfail
  · push Not at hall
    obtain ⟨q, hq, hfail⟩ := hall
    rw [ne_eq, Bool.not_eq_true] at hfail
    rw [availablePorts_of_fails hq hfail, List.mem_filter, List.mem_range]
    constructor
    · rintro ⟨hp, hc⟩
      refine ⟨hp, hc, fun hlast => ⟨q, ?_, hfail⟩⟩
      have hne : q ≠ p := by
        rintro rfl
        rw [hc] at hfail
        cases hfail
      have : q < 65536 := hq
      omega
    · rintro ⟨hp, hc, -⟩
      exact ⟨hp, hc⟩

section Family

variable {A : Type} [DecidableEq A] (fam : RssFamily A)

/-- The entry lists these ports in `dport[1..num]`. -/
structure Lists (e : RssDip A) (ports : List ℕ) : Prop where
  num_eq : e.num = ports.length
  dport_eq : ∀ k p, ports[k]? = some p → e.dport (k + 1) = p

omit [DecidableEq A] in
/-- The port loop, up to port `n`.
SOURCE: lib/ff_dpdk_if.c:2757-2767 -/
theorem portScan_foldl (check : ℕ → Bool) (e : RssDip A) (he : e.num = 0) (n : ℕ) {st : PortScan A}
    (hst : st = (List.range n).foldl (portScanStep check) ⟨e, 1, none⟩) (hports : ports = (List.range n).filter check) :
    st.k = ports.length + 1 ∧ st.dip.num = ports.length % 65536 ∧
      st.dip.first_idx = e.first_idx ∧
      ∀ k p, ports[k]? = some p → st.dip.dport (k + 1) = p := by
  subst hst hports
  induction n with
  | zero => simp [he]
  | succ n ih =>
    obtain ⟨hk, hnum, hfirst, hdport⟩ := ih
    rw [List.range_succ, List.foldl_append, List.filter_append]
    by_cases hc : check n = true
    · simp only [List.foldl_cons, List.foldl_nil, portScanStep, if_pos hc, List.filter_cons_of_pos hc,
        List.filter_nil, List.length_append, List.length_singleton]
      refine ⟨by rw [hk], by rw [hnum]; omega, hfirst, ?_⟩
      intro k p hkp
      rw [List.getElem?_append] at hkp
      by_cases hlt : k < ((List.range n).filter check).length
      · rw [if_pos hlt] at hkp
        rw [Function.update_of_ne (by omega)]
        exact hdport k p hkp
      · rw [if_neg hlt, List.getElem?_singleton] at hkp
        split at hkp
        · next hz =>
          have hkeq : k + 1 = ((List.range n).foldl (portScanStep check) ⟨e, 1, none⟩).k := by omega
          rw [hkeq, Function.update_self]
          exact Option.some.inj hkp
        · cases hkp
    · simp only [List.foldl_cons, List.foldl_nil, portScanStep, if_neg hc,
        List.filter_cons_of_neg hc, List.filter_nil, List.append_nil]
      exact ⟨hk, hnum, hfirst, hdport⟩

omit [DecidableEq A] in
/-- The entry that is left after the loop over `n` ports.
SOURCE: lib/ff_dpdk_if.c:2768-2779 -/
theorem closePortScan_lists (daddr : A) {st : PortScan A} (hlen : ports.length ≤ 65536) (hk : st.k = ports.length + 1)
    (hnum : st.dip.num = ports.length % 65536) (hdport : ∀ k p, ports[k]? = some p → st.dip.dport (k + 1) = p) :
    Lists (closePortScan daddr st) (ports.take 65535) ∧
      (closePortScan daddr st).first_idx = st.dip.first_idx ∧
      (closePortScan daddr st).last_idx = (ports.take 65535).length ∧
      (closePortScan daddr st).daddr = daddr := by
  have hget : ∀ k p : ℕ, (ports.take 65535)[k]? = some p → st.dip.dport (k + 1) = p := by
    intro k p hkp
    rw [List.getElem?_take] at hkp
    split at hkp
    · exact hdport k p hkp
    · cases hkp
  have hmax : FF_RSS_TBL_MAX_DPORT = 65536 := rfl
  unfold closePortScan
  by_cases hfull : st.k = FF_RSS_TBL_MAX_DPORT + 1
  · simp only [if_pos hfull]
    refine ⟨⟨?_, hget⟩, trivial, ?_, trivial⟩
    · simp only [List.length_take]
      omega
    · simp only [List.length_take]
      omega
  · simp only [if_neg hfull]
    refine ⟨⟨?_, hget⟩, trivial, ?_, trivial⟩
    · simp only [List.length_take]
      omega
    · simp only [List.length_take]
      omega

omit [DecidableEq A] in
/-- A new entry lists the available ports, with the whole list as its range.
SOURCE: lib/ff_dpdk_if.c:2751-2779 -/
theorem fillDip_lists (check : ℕ → Bool) (daddr : A) (e : RssDip A) (he : e.num = 0) :
    Lists (fillDip check daddr e) (availablePorts check) ∧
      (fillDip check daddr e).first_idx = 1 ∧
      (fillDip check daddr e).last_idx = (availablePorts check).length ∧
      (fillDip check daddr e).daddr = daddr := by
  obtain ⟨hk, hnum, hfirst, hdport⟩ := portScan_foldl check
    { e with dport := Function.update e.dport 0 1, first_idx := 1 } he FF_RSS_TBL_MAX_DPORT
    (portScan.eq_1 check e) rfl
  have hlen : ((List.range FF_RSS_TBL_MAX_DPORT).filter check).length ≤ 65536 := by
    have := List.length_filter_le check (List.range FF_RSS_TBL_MAX_DPORT)
    rwa [List.length_range] at this
  obtain ⟨hlists, hf, hl, hd⟩ := closePortScan_lists daddr hlen hk hnum hdport
  rw [fillDip, availablePorts]
  exact ⟨hlists, hf.trans hfirst, hl, hd⟩

/-- The key of an outer slot. -/
def slotKey (s : RssSlot A) : Option (A × UInt16) :=
  if fam.isAny s.saddr then none else some (s.saddr, s.sport)

/-- The key of an inner slot. -/
def dipKey (e : RssDip A) : Option A := if fam.isAny e.daddr then none else some e.daddr

/-- The index computation of the outer table, on keys. -/
def outerHash (k : A × UInt16) : Fin 16 := fam.saddrSportIdx k.1 k.2

/-- The probe of the outer table is the library's search. -/
theorem saddrSportProbe_eq_search (t : RssTbl A) (saddr : A) (sport : UInt16) :
    saddrSportProbe fam t saddr sport =
      search (outerHash fam) (fun i => slotKey fam (t i)) (saddr, sport) := by
  have hstop : (fun i => fam.isAny (t i).saddr ||
      (decide ((t i).saddr = saddr) && (t i).sport == sport)) =
      stopAt (fun i => slotKey fam (t i)) (saddr, sport) := by
    funext i
    by_cases hany : fam.isAny (t i).saddr = true
    · simp [stopAt, slotKey, hany]
    · simp only [stopAt, slotKey, hany, Bool.false_or, if_false, reduceCtorEq, false_or,
        Bool.false_eq_true, Option.some.injEq, Prod.mk.injEq, Bool.decide_and, beq_eq_decide]
  rw [saddrSportProbe, hstop]
  rfl

/-- The probe of an inner table is the library's search. -/
theorem daddrProbe_eq_search (s : RssSlot A) (daddr : A) :
    daddrProbe fam s daddr = search fam.daddrIdx (fun j => dipKey fam (s.dip_tbl j)) daddr := by
  have hstop : (fun j => fam.isAny (s.dip_tbl j).daddr || decide ((s.dip_tbl j).daddr = daddr)) =
      stopAt (fun j => dipKey fam (s.dip_tbl j)) daddr := by
    funext j
    by_cases hany : fam.isAny (s.dip_tbl j).daddr = true
    · simp [stopAt, dipKey, hany]
    · simp [stopAt, dipKey, hany]
  rw [daddrProbe, hstop]
  rfl

/-- The ports of a configuration entry that pass the RSS check on the entry's port. -/
def tuplePorts (c : RssTuple A) : List ℕ :=
  availablePorts fun p =>
    fam.rssCheck c.port_id c.saddr c.daddr c.sport (htons (UInt16.ofNat p))

/-- The entry holds the list of `c`, all of it selected. -/
structure HoldsTuple (e : RssDip A) (c : RssTuple A) : Prop where
  lists : Lists e (tuplePorts fam c)
  first_idx_eq : e.first_idx = 1
  last_idx_eq : e.last_idx = (tuplePorts fam c).length

/-- The invariant of `ff_rss_tbl_init`: both levels are probed, what is not in use is zero, and
the entries in use are those of `ins`, each with its list. -/
structure TblInv (t : RssTbl A) (ins : List (RssTuple A)) : Prop where
  outer : Probed (outerHash fam) (fun i => slotKey fam (t i))
  inner : ∀ i, Probed fam.daddrIdx (fun j => dipKey fam ((t i).dip_tbl j))
  free_slot : ∀ i j, slotKey fam (t i) = none → dipKey fam ((t i).dip_tbl j) = none
  free_num : ∀ i j, dipKey fam ((t i).dip_tbl j) = none → ((t i).dip_tbl j).num = 0
  stored : ∀ c ∈ ins, ∃ i j, slotKey fam (t i) = some (c.saddr, c.sport) ∧
    dipKey fam ((t i).dip_tbl j) = some c.daddr ∧ HoldsTuple fam ((t i).dip_tbl j) c
  listed : ∀ i j k d, slotKey fam (t i) = some k → dipKey fam ((t i).dip_tbl j) = some d →
    ∃ c ∈ ins, (c.saddr, c.sport) = k ∧ c.daddr = d

theorem TblInv.zero : TblInv fam (zeroTbl fam) [] := by
  have hany : fam.isAny fam.any = true := (fam.isAny_iff fam.any).mpr rfl
  have hslot : ∀ i, slotKey fam (zeroTbl fam i) = none := fun i => if_pos hany
  have hdip : ∀ i j, dipKey fam ((zeroTbl fam i).dip_tbl j) = none := fun i j => if_pos hany
  refine ⟨Probed.empty hslot, fun i => Probed.empty (hdip i), fun i j _ => hdip i j,
    fun i j _ => rfl, ?_, ?_⟩
  · intro c hc
    cases hc
  · intro i j k d hk
    rw [hslot] at hk
    cases hk

/-- `t'` is `t` with the entry `e`, made for `c`, stored in a free place that was found for it. -/
structure Stores (t t' : RssTbl A) (c : RssTuple A) (i : Fin 16) (j : Fin 4) (e : RssDip A) :
    Prop where
  slot : search (outerHash fam) (fun i => slotKey fam (t i)) (c.saddr, c.sport) = some i
  place : search fam.daddrIdx (fun j => dipKey fam ((t i).dip_tbl j)) c.daddr = some j
  free : dipKey fam ((t i).dip_tbl j) = none
  slot_key : slotKey fam (t' i) = some (c.saddr, c.sport)
  dips : (t' i).dip_tbl = Function.update (t i).dip_tbl j e
  other : ∀ i', i' ≠ i → t' i' = t i'
  dip_key : dipKey fam e = some c.daddr
  holds : HoldsTuple fam e c

section Store

variable {fam} {t t' : RssTbl A} {c : RssTuple A} {i : Fin 16} {j : Fin 4} {e : RssDip A}

theorem Stores.slotKeys (h : Stores fam t t' c i j e) : (fun i' => slotKey fam (t' i')) =
    Function.update (fun i' => slotKey fam (t i')) i (some (c.saddr, c.sport)) := by
  funext i'
  by_cases hne : i' = i
  · subst hne
    rw [Function.update_self, h.slot_key]
  · rw [Function.update_of_ne hne, h.other i' hne]

theorem Stores.dipKeys (h : Stores fam t t' c i j e) :
    (fun j' => dipKey fam ((t' i).dip_tbl j')) =
      Function.update (fun j' => dipKey fam ((t i).dip_tbl j')) j (some c.daddr) := by
  funext j'
  rw [h.dips]
  by_cases hjj : j' = j
  · subst hjj
    rw [Function.update_self, Function.update_self, h.dip_key]
  · rw [Function.update_of_ne hjj, Function.update_of_ne hjj]

/-- A slot that held a key keeps it. -/
theorem Stores.slotKey_eq (h : Stores fam t t' c i j e) {k : A × UInt16} (hk : slotKey fam (t i') = some k) :
    slotKey fam (t' i') = some k := by
  by_cases hne : i' = i
  · subst hne
    rw [h.slot_key, ← hk]
    exact ((search_free_or h.slot).resolve_left (by simp [hk])).symm
  · rwa [h.other i' hne]

/-- An entry in use is not touched. -/
theorem Stores.dip_eq (h : Stores fam t t' c i j e) {d : A} (hd : dipKey fam ((t i').dip_tbl j') = some d) :
    (t' i').dip_tbl j' = (t i').dip_tbl j' := by
  by_cases hne : i' = i
  · subst hne
    have hjj : j' ≠ j := by
      rintro rfl
      rw [h.free] at hd
      cases hd
    rw [h.dips, Function.update_of_ne hjj]
  · rw [h.other i' hne]

/-- An entry in use is the new one or was in use. -/
theorem Stores.listed (h : Stores fam t t' c i j e) {ins : List (RssTuple A)} (hinv : TblInv fam t ins) {k : A × UInt16}
    {d : A} (hk : slotKey fam (t' i') = some k) (hd : dipKey fam ((t' i').dip_tbl j') = some d) :
    ∃ c' ∈ c :: ins, (c'.saddr, c'.sport) = k ∧ c'.daddr = d := by
  by_cases hne : i' = i
  · subst hne
    rw [h.slot_key] at hk
    rw [h.dips] at hd
    by_cases hjj : j' = j
    · subst hjj
      rw [Function.update_self, h.dip_key] at hd
      exact ⟨c, List.mem_cons_self, Option.some.inj hk, Option.some.inj hd⟩
    · rw [Function.update_of_ne hjj] at hd
      rcases search_free_or h.slot with hnone | hsome
      · have := hinv.free_slot i' j' hnone
        rw [this] at hd
        cases hd
      · obtain ⟨c', hc', heq, hdeq⟩ := hinv.listed i' j' _ d hsome hd
        exact ⟨c', List.mem_cons_of_mem c hc', heq.trans (Option.some.inj hk), hdeq⟩
  · rw [h.other i' hne] at hk hd
    obtain ⟨c', hc', heq, hdeq⟩ := hinv.listed i' j' k d hk hd
    exact ⟨c', List.mem_cons_of_mem c hc', heq, hdeq⟩

/-- An entry that is stored in a free place keeps the invariant.
SOURCE: lib/ff_dpdk_if.c:2751-2784 -/
theorem Stores.tblInv (h : Stores fam t t' c i j e) {ins : List (RssTuple A)}
    (hinv : TblInv fam t ins) : TblInv fam t' (c :: ins) := by
  refine ⟨?_, ?_, ?_, ?_, ?_, fun i' j' k d hk hd => h.listed hinv hk hd⟩
  · rw [h.slotKeys]
    exact hinv.outer.fill h.slot
  · intro i'
    by_cases hne : i' = i
    · subst hne
      rw [h.dipKeys]
      exact (hinv.inner i').fill h.place
    · rw [h.other i' hne]
      exact hinv.inner i'
  · intro i' j' hnone
    by_cases hne : i' = i
    · subst hne
      rw [h.slot_key] at hnone
      cases hnone
    · rw [h.other i' hne] at hnone ⊢
      exact hinv.free_slot i' j' hnone
  · intro i' j' hnone
    by_cases hne : i' = i
    · subst hne
      rw [h.dips] at hnone ⊢
      by_cases hjj : j' = j
      · subst hjj
        rw [Function.update_self, h.dip_key] at hnone
        cases hnone
      · rw [Function.update_of_ne hjj] at hnone ⊢
        exact hinv.free_num i' j' hnone
    · rw [h.other i' hne] at hnone ⊢
      exact hinv.free_num i' j' hnone
  · intro c' hc'
    rcases List.mem_cons.mp hc' with rfl | hold
    · refine ⟨i, j, h.slot_key, ?_, ?_⟩
      · rw [h.dips, Function.update_self, h.dip_key]
      · rw [h.dips, Function.update_self]
        exact h.holds
    · obtain ⟨i', j', hk, hd, hholds⟩ := hinv.stored c' hold
      refine ⟨i', j', h.slotKey_eq hk, ?_, ?_⟩
      · rw [h.dip_eq hd, hd]
      · rw [h.dip_eq hd]
        exact hholds

end Store

/-- One round of the loop over the configuration.
SOURCE: lib/ff_dpdk_if.c:2675-2793 -/
theorem TblInv.insert {t : RssTbl A} {ins : List (RssTuple A)} (h : TblInv fam t ins)
    {c : RssTuple A} (hany : (rssTblInsert fam t c).2 = .inserted → c.saddr ≠ fam.any ∧ c.daddr ≠ fam.any) :
    TblInv fam (rssTblInsert fam t c).1
      (if (rssTblInsert fam t c).2 = .inserted then c :: ins else ins) := by
  unfold rssTblInsert at hany ⊢
  cases hi : saddrSportProbe fam t c.saddr c.sport with
  | none => exact h
  | some i =>
    cases hj : daddrProbe fam (t i) c.daddr with
    | none =>
      simp only [hj]
      exact h
    | some j =>
      simp only [hj]
      by_cases hfree : fam.isAny ((t i).dip_tbl j).daddr = true
      · simp only [hi, hj, if_pos hfree] at hany
        obtain ⟨hs, hd⟩ := hany trivial
        simp only [if_pos hfree, if_true]
        rw [saddrSportProbe_eq_search] at hi
        rw [daddrProbe_eq_search] at hj
        have hnone : dipKey fam ((t i).dip_tbl j) = none := if_pos hfree
        obtain ⟨hlists, hfirst, hlast, hdaddr⟩ := fillDip_lists
          (fun p => fam.rssCheck c.port_id c.saddr c.daddr c.sport (htons (UInt16.ofNat p)))
          c.daddr ((t i).dip_tbl j) (h.free_num i j hnone)
        have hsnot : ¬ fam.isAny c.saddr = true := fun hany => hs ((fam.isAny_iff _).mp hany)
        have hdnot : ¬ fam.isAny c.daddr = true := fun hany => hd ((fam.isAny_iff _).mp hany)
        refine Stores.tblInv ⟨hi, hj, hnone, ?_, ?_, ?_, ?_, ⟨hlists, hfirst, hlast⟩⟩ h
        · rw [Function.update_self, slotKey, if_neg hsnot]
        · rw [Function.update_self]
        · intro i' hne
          rw [Function.update_of_ne hne]
        · rw [dipKey, hdaddr, if_neg hdnot]
      · simp only [if_neg hfree, reduceCtorEq, if_false]
        exact h

/-- An entry is ignored exactly if all slots are taken by other remote addresses and ports, or its
own slot lists its local address already or has no room for it.
SOURCE: lib/ff_dpdk_if.c:2707-2749 -/
theorem TblInv.ignored_iff {t : RssTbl A} {ins : List (RssTuple A)} (h : TblInv fam t ins)
    (c : RssTuple A) :
    (rssTblInsert fam t c).2 ≠ .inserted ↔
      (∀ i, slotKey fam (t i) ≠ none ∧ slotKey fam (t i) ≠ some (c.saddr, c.sport)) ∨
      ∃ i, slotKey fam (t i) = some (c.saddr, c.sport) ∧
        ((∃ j, dipKey fam ((t i).dip_tbl j) = some c.daddr) ∨
          ∀ j, dipKey fam ((t i).dip_tbl j) ≠ none) := by
  unfold rssTblInsert
  cases hi : saddrSportProbe fam t c.saddr c.sport with
  | none =>
    rw [saddrSportProbe_eq_search, search_eq_none_iff] at hi
    exact ⟨fun _ => .inl hi, fun _ => by simp⟩
  | some i =>
    rw [saddrSportProbe_eq_search] at hi
    have hnotfull : ¬ ∀ i, slotKey fam (t i) ≠ none ∧ slotKey fam (t i) ≠ some (c.saddr, c.sport) := by
      intro hfull
      have hnone := (search_eq_none_iff.mpr hfull).symm.trans hi
      cases hnone
    -- the slot with the entry's key, if there is one, is the slot found
    have hown : ∀ i', slotKey fam (t i') = some (c.saddr, c.sport) → i' = i := by
      intro i' hi'
      exact Option.some.inj ((h.outer i' _ hi').symm.trans hi)
    cases hj : daddrProbe fam (t i) c.daddr with
    | none =>
      simp only [hj, ne_eq, reduceCtorEq, not_false_eq_true, true_iff]
      rw [daddrProbe_eq_search, search_eq_none_iff] at hj
      right
      refine ⟨i, ?_, .inr fun j => (hj j).1⟩
      apply (search_free_or hi).resolve_left
      intro hnone
      exact (hj 0).1 (h.free_slot i 0 hnone)
    | some j =>
      simp only [hj]
      rw [daddrProbe_eq_search] at hj
      by_cases hfree : fam.isAny ((t i).dip_tbl j).daddr = true
      · have hnone : dipKey fam ((t i).dip_tbl j) = none := if_pos hfree
        simp only [if_pos hfree, ne_eq, not_true_eq_false, false_iff]
        rintro (hfull | ⟨i', hi', ⟨j', hj'⟩ | hfull⟩)
        · exact hnotfull hfull
        · obtain rfl := hown i' hi'
          have := Option.some.inj ((h.inner i' j' _ hj').symm.trans hj)
          subst this
          rw [hnone] at hj'
          cases hj'
        · obtain rfl := hown i' hi'
          exact hfull j hnone
      · have hsome : dipKey fam ((t i).dip_tbl j) = some c.daddr :=
          (search_free_or hj).resolve_left (by simp [dipKey, hfree])
        simp only [if_neg hfree, ne_eq, reduceCtorEq, not_false_eq_true, true_iff]
        right
        refine ⟨i, ?_, .inl ⟨j, hsome⟩⟩
        apply (search_free_or hi).resolve_left
        intro hnone
        rw [h.free_slot i j hnone] at hsome
        cases hsome

omit [DecidableEq A] in
theorem mem_ite_cons_iff (o : InitOutcome) (c c' : RssTuple A) (ins : List (RssTuple A)) :
    c' ∈ (if o = .inserted then c :: ins else ins) ↔
      (c', InitOutcome.inserted) = (c, o) ∨ c' ∈ ins := by
  by_cases ho : o = .inserted
  · rw [if_pos ho, List.mem_cons, ho, Prod.mk.injEq]
    simp
  · rw [if_neg ho, Prod.mk.injEq]
    simp [Ne.symm ho]

/-- The loop over the configuration keeps the invariant, and its log says which entries
are in the table.
SOURCE: lib/ff_dpdk_if.c:2675-2793 -/
theorem TblInv.initLoop (cs : List (RssTuple A)) {t : RssTbl A} {ins : List (RssTuple A)}
    (h : TblInv fam t ins)
    (hcs : ∀ c, (c, .inserted) ∈ (rssTblInitLoop fam t cs).2 → c.saddr ≠ fam.any ∧ c.daddr ≠ fam.any) :
    ∃ ins', TblInv fam (rssTblInitLoop fam t cs).1 ins' ∧
      ∀ c, c ∈ ins' ↔ (c, .inserted) ∈ (rssTblInitLoop fam t cs).2 ∨ c ∈ ins := by
  induction cs generalizing t ins with
  | nil =>
    refine ⟨ins, h, fun c => ?_⟩
    simp [rssTblInitLoop]
  | cons c cs ih =>
    have hc : (rssTblInsert fam t c).2 = .inserted → c.saddr ≠ fam.any ∧ c.daddr ≠ fam.any := by
      intro hins
      exact hcs c (List.mem_cons.mpr (.inl (Prod.ext rfl hins.symm)))
    obtain ⟨ins', hinv, hmem⟩ := ih (h.insert fam hc)
      (fun c' hc' => hcs c' (List.mem_cons_of_mem _ hc'))
    refine ⟨ins', hinv, fun c' => ?_⟩
    rw [hmem c', mem_ite_cons_iff]
    simp only [rssTblInitLoop, List.mem_cons]
    rw [or_left_comm, ← or_assoc]

theorem TblInv.init (sc : Bool) (cs : List (RssTuple A))
    (hcs : ∀ c, (c, .inserted) ∈ (rssTblInit fam sc cs).log → c.saddr ≠ fam.any ∧ c.daddr ≠ fam.any) :
    ∃ ins, TblInv fam (rssTblInit fam sc cs).tbl ins ∧
      ∀ c, c ∈ ins ↔ (c, .inserted) ∈ (rssTblInit fam sc cs).log := by
  cases sc with
  | false => exact ⟨[], TblInv.zero fam, by simp [rssTblInit]⟩
  | true =>
    obtain ⟨ins, hinv, hmem⟩ := TblInv.initLoop fam cs (TblInv.zero fam) hcs
    exact ⟨ins, hinv, fun c => by simpa [rssTblInit] using hmem c⟩

/-- The log is about the entries of the configuration. -/
theorem mem_of_log {sc : Bool} {cs : List (RssTuple A)} {c : RssTuple A} {o : InitOutcome}
    (h : (c, o) ∈ (rssTblInit fam sc cs).log) : c ∈ cs := by
  have hloop : ∀ (cs : List (RssTuple A)) (t : RssTbl A), (c, o) ∈ (rssTblInitLoop fam t cs).2 → c ∈ cs := by
    intro cs
    induction cs with
    | nil => exact fun _ hmem => absurd hmem List.not_mem_nil
    | cons c' cs ih =>
      intro t hmem
      rcases List.mem_cons.mp hmem with heq | hmem
      · exact List.mem_cons.mpr (.inl (Prod.mk.inj heq).1)
      · exact List.mem_cons_of_mem c' (ih _ hmem)
  cases sc with
  | false => simp [rssTblInit] at h
  | true => exact hloop cs _ h

/-- All slots are taken by other remote addresses and ports, or the slot of the entry lists its local address already or
has no room for it. -/
def NoPlace (t : RssTbl A) (c : RssTuple A) : Prop :=
  (∀ i, slotKey fam (t i) ≠ none ∧ slotKey fam (t i) ≠ some (c.saddr, c.sport)) ∨
    ∃ i, slotKey fam (t i) = some (c.saddr, c.sport) ∧
      ((∃ j, dipKey fam ((t i).dip_tbl j) = some c.daddr) ∨ ∀ j, dipKey fam ((t i).dip_tbl j) ≠ none)

/-- After any configuration, the next entry is ignored for want of room or because it is there, and for no collision.
SOURCE: lib/ff_dpdk_if.c:2675-2793 -/
theorem rssTblInit_ignores_iff {cs : List (RssTuple A)} (hcs : ∀ c ∈ cs, c.saddr ≠ fam.any ∧ c.daddr ≠ fam.any)
    (c : RssTuple A) : (rssTblInsert fam (rssTblInit fam true cs).tbl c).2 ≠ .inserted ↔
      NoPlace fam (rssTblInit fam true cs).tbl c := by
  obtain ⟨ins, hinv, -⟩ := TblInv.init fam true cs fun c hc => hcs c (mem_of_log fam hc)
  exact hinv.ignored_iff fam c

/-- A configuration of one entry is inserted. -/
theorem rssTblInit_single_log (c : RssTuple A) :
    (rssTblInit fam true [c]).log = [(c, .inserted)] := by
  have hany : fam.isAny fam.any = true := (fam.isAny_iff fam.any).mpr rfl
  have hslot : saddrSportProbe fam (zeroTbl fam) c.saddr c.sport =
      some (fam.saddrSportIdx c.saddr c.sport) := by
    simp [saddrSportProbe, FF_RSS_TBL_MAX_SADDR_SPORT_ENTRIES, probe, zeroTbl, hany]
  have hdip : daddrProbe fam (zeroTbl fam (fam.saddrSportIdx c.saddr c.sport)) c.daddr =
      some (fam.daddrIdx c.daddr) := by
    simp [daddrProbe, FF_RSS_TBL_MAX_DADDR, probe, zeroTbl, hany]
  have hfree : fam.isAny ((zeroTbl fam (fam.saddrSportIdx c.saddr c.sport)).dip_tbl
      (fam.daddrIdx c.daddr)).daddr = true := hany
  simp only [rssTblInit, if_true, rssTblInitLoop, rssTblInsert, hslot, hdip, if_pos hfree]

/-- A lookup in a probed table finds the entry with the three keys.
SOURCE: lib/ff_dpdk_if.c:2861-2914 -/
theorem rssTblGetPortrange_of_keys {t : RssTbl A} (hout : Probed (outerHash fam) (fun i => slotKey fam (t i)))
    (hin : ∀ i, Probed fam.daddrIdx (fun j => dipKey fam ((t i).dip_tbl j))) {saddr daddr : A} {i : Fin 16} {j : Fin 4}
    (hi : slotKey fam (t i) = some (saddr, sport)) (hj : dipKey fam ((t i).dip_tbl j) = some daddr) :
    rssTblGetPortrange fam true t saddr daddr sport =
      .ok ⟨((t i).dip_tbl j).first_idx, ((t i).dip_tbl j).last_idx, (i, j)⟩ := by
  have hsi : saddrSportProbe fam t saddr sport = some i := by
    rw [saddrSportProbe_eq_search]
    exact hout i _ hi
  have hsj : daddrProbe fam (t i) daddr = some j := by
    rw [daddrProbe_eq_search]
    exact hin i j _ hj
  have hni : ¬ fam.isAny (t i).saddr = true := by
    intro hany
    rw [slotKey, if_pos hany] at hi
    cases hi
  have hnj : ¬ fam.isAny ((t i).dip_tbl j).daddr = true := by
    intro hany
    rw [dipKey, if_pos hany] at hj
    cases hj
  simp only [rssTblGetPortrange, hsi, hsj, if_neg hni, if_neg hnj, Bool.true_eq_false, if_false]

/-- With the check enabled a lookup fails with `-ENOENT` only. -/
theorem rssTblGetPortrange_error {t : RssTbl A} {saddr daddr : A} {ret : ℤ}
    (h : rssTblGetPortrange fam true t saddr daddr sport = .error ret) : ret = -ENOENT := by
  unfold rssTblGetPortrange at h
  rw [if_neg (by simp)] at h
  split at h
  · exact (Except.error.inj h).symm
  · split at h
    · exact (Except.error.inj h).symm
    · split at h
      · exact (Except.error.inj h).symm
      · split at h
        · exact (Except.error.inj h).symm
        · cases h

/-- What a lookup finds has the three keys. -/
theorem rssTblGetPortrange_ok {t : RssTbl A} {saddr daddr : A} {r : PortRange}
    (h : rssTblGetPortrange fam true t saddr daddr sport = .ok r) :
    ∃ i j, slotKey fam (t i) = some (saddr, sport) ∧ dipKey fam ((t i).dip_tbl j) = some daddr ∧
      r = ⟨((t i).dip_tbl j).first_idx, ((t i).dip_tbl j).last_idx, (i, j)⟩ := by
  unfold rssTblGetPortrange at h
  rw [if_neg (by simp)] at h
  cases hi : saddrSportProbe fam t saddr sport with
  | none => simp [hi] at h
  | some i =>
    simp only [hi] at h
    rw [saddrSportProbe_eq_search] at hi
    by_cases hany : fam.isAny (t i).saddr = true
    · simp [hany] at h
    simp only [if_neg hany] at h
    cases hj : daddrProbe fam (t i) daddr with
    | none => simp [hj] at h
    | some j =>
      simp only [hj] at h
      rw [daddrProbe_eq_search] at hj
      by_cases hdany : fam.isAny ((t i).dip_tbl j).daddr = true
      · simp [hdany] at h
      · rw [if_neg hdany] at h
        have hslot := (search_free_or hi).resolve_left (by simp [slotKey, hany])
        have hdip := (search_free_or hj).resolve_left (by simp [dipKey, hdany])
        exact ⟨i, j, hslot, hdip, (Except.ok.inj h).symm⟩

/-- A lookup that finds nothing with the three keys answers `-ENOENT`. -/
theorem rssTblGetPortrange_of_not_keys {t : RssTbl A} {saddr daddr : A}
    (h : ∀ i j, slotKey fam (t i) = some (saddr, sport) →
      dipKey fam ((t i).dip_tbl j) ≠ some daddr) :
    rssTblGetPortrange fam true t saddr daddr sport = .error (-ENOENT) := by
  cases hget : rssTblGetPortrange fam true t saddr daddr sport with
  | ok r =>
    obtain ⟨i, j, hslot, hdip, -⟩ := rssTblGetPortrange_ok fam hget
    exact absurd hdip (h i j hslot)
  | error ret =>
    rw [rssTblGetPortrange_error fam hget]

/-- The ports that a lookup hands to its caller: `dport[first_idx..last_idx]`. -/
def selectedPorts (t : RssTbl A) (r : PortRange) : List ℕ :=
  (List.range' r.rss_first (r.rss_last + 1 - r.rss_first)).map
    ((t r.rss_portrange.1).dip_tbl r.rss_portrange.2).dport

omit [DecidableEq A] in
theorem Lists.map_dport {e : RssDip A} (h : Lists e ports) :
    (List.range' 1 ports.length).map e.dport = ports := by
  apply List.ext_getElem?
  intro k
  rw [List.getElem?_map]
  by_cases hk : k < ports.length
  · rw [List.getElem?_range' hk, Option.map_some, Nat.one_mul, Nat.add_comm 1 k,
      List.getElem?_eq_getElem hk, h.dport_eq k _ (List.getElem?_eq_getElem hk)]
  · have hlen : (List.range' 1 ports.length).length ≤ k := by
      rw [List.length_range']
      exact Nat.le_of_not_lt hk
    rw [List.getElem?_eq_none hlen, List.getElem?_eq_none (Nat.le_of_not_lt hk), Option.map_none]

omit [DecidableEq A] in
theorem selectedPorts_of_lists {t : RssTbl A} {i : Fin 16} {j : Fin 4} (h : Lists ((t i).dip_tbl j) ports) :
    selectedPorts t ⟨1, ports.length, (i, j)⟩ = ports := by
  rw [selectedPorts, Nat.add_sub_cancel]
  exact h.map_dport

/-- A table and its lookup are a map: a tuple that was inserted is found, with the strictly
increasing list of its ports, and any other query is answered with `-ENOENT`. -/
def IsPortMap (r : RssTblInit A) (get : A → A → UInt16 → Except ℤ PortRange)
    (port : RssTuple A → ℕ → Prop) : Prop :=
  (∀ c, (c, .inserted) ∈ r.log → ∃ range, get c.saddr c.daddr c.sport = .ok range ∧
    (selectedPorts r.tbl range).Pairwise (· < ·) ∧
    ∀ p, p ∈ selectedPorts r.tbl range ↔ port c p) ∧
  ∀ saddr daddr sport,
    (∀ c, (c, .inserted) ∈ r.log → ¬ (c.saddr = saddr ∧ c.daddr = daddr ∧ c.sport = sport)) →
    get saddr daddr sport = .error (-ENOENT)

/-- The port passes the RSS check on the entry's port; port 65535 counts only if another port
does not. -/
def ListedPort (c : RssTuple A) (p : ℕ) : Prop :=
  let check (q : ℕ) := fam.rssCheck c.port_id c.saddr c.daddr c.sport (htons (UInt16.ofNat q))
  p < 65536 ∧ check p = true ∧ (p = 65535 → ∃ q < 65535, check q = false)

omit [DecidableEq A] in
theorem mem_tuplePorts_iff (c : RssTuple A) (p : ℕ) :
    p ∈ tuplePorts fam c ↔ ListedPort fam c p := by
  rw [tuplePorts, mem_availablePorts_iff, ListedPort]

/-- The map law, for both address families. -/
theorem rssTblInit_isPortMap (sc : Bool) (cs : List (RssTuple A))
    (hcs : ∀ c ∈ cs, c.saddr ≠ fam.any ∧ c.daddr ≠ fam.any) :
    IsPortMap (rssTblInit fam sc cs)
      (rssTblGetPortrange fam true (rssTblInit fam sc cs).tbl) (ListedPort fam) := by
  obtain ⟨ins, hinv, hmem⟩ := TblInv.init fam sc cs fun c hc => hcs c (mem_of_log fam hc)
  constructor
  · intro c hc
    obtain ⟨i, j, hi, hj, hholds⟩ := hinv.stored c ((hmem c).mpr hc)
    have hsel := selectedPorts_of_lists hholds.lists
    refine ⟨⟨1, (tuplePorts fam c).length, (i, j)⟩, ?_, ?_, ?_⟩
    · rw [rssTblGetPortrange_of_keys fam hinv.outer hinv.inner hi hj, hholds.first_idx_eq,
        hholds.last_idx_eq]
    · rw [hsel, tuplePorts]
      exact availablePorts_sorted _
    · intro p
      rw [hsel]
      exact mem_tuplePorts_iff fam c p
  · intro saddr daddr sport hnot
    apply rssTblGetPortrange_of_not_keys
    intro i j hi hj
    obtain ⟨c, hc, hkey, hdaddr⟩ := hinv.listed i j _ _ hi hj
    rw [Prod.mk.injEq] at hkey
    exact hnot c ((hmem c).mp hc) ⟨hkey.1, hdaddr, hkey.2⟩

end Family

theorem cfgs4_nonzero (h : ∀ c ∈ cfgs, c.family ≠ .inet6 → c.saddr ≠ 0 ∧ c.daddr ≠ 0) :
    ∀ c ∈ cfgs4 cfgs, c.saddr ≠ 0 ∧ c.daddr ≠ 0 := by
  intro c hc
  obtain ⟨cfg, hcfg, rfl⟩ := List.mem_map.mp hc
  obtain ⟨hmem, hfam⟩ := List.mem_filter.mp hcfg
  exact h cfg hmem (of_decide_eq_true hfam)

theorem cfgs6_nonzero (h : ∀ c ∈ cfgs, c.family = .inet6 → c.saddr6 ≠ (fun _ => 0) ∧ c.daddr6 ≠ (fun _ => 0)) :
    ∀ c ∈ cfgs6 cfgs, c.saddr ≠ (fun _ => 0) ∧ c.daddr ≠ (fun _ => 0) := by
  intro c hc
  obtain ⟨cfg, hcfg, rfl⟩ := List.mem_map.mp hc
  obtain ⟨hmem, hfam⟩ := List.mem_filter.mp hcfg
  exact h cfg hmem (of_decide_eq_true hfam)

/-- After `ff_rss_tbl_init` the lookup is a map from the triples that were inserted to the ports
that pass the RSS check, with port 65535 left out when every port passes; the same holds of the
IPv6 functions.
SOURCE: lib/ff_dpdk_if.c:2660-2914, lib/ff_dpdk_if.c:3470-3685 -/
theorem ffRssTbl_isPortMap (conf : RssConf) (sc : Bool) (cfgs : List RssTblCfg)
    (h4 : ∀ c ∈ cfgs, c.family ≠ .inet6 → c.saddr ≠ 0 ∧ c.daddr ≠ 0)
    (h6 : ∀ c ∈ cfgs, c.family = .inet6 → c.saddr6 ≠ (fun _ => 0) ∧ c.daddr6 ≠ (fun _ => 0)) :
    IsPortMap (ffRssTblInit conf sc cfgs)
        (ffRssTblGetPortrange conf true (ffRssTblInit conf sc cfgs).tbl)
        (ListedPort (rssFamily4 conf)) ∧
      IsPortMap (ffRssTbl6Init conf sc cfgs)
        (ffRssTbl6GetPortrange conf true (ffRssTbl6Init conf sc cfgs).tbl)
        (ListedPort (rssFamily6 conf)) := by
  constructor
  · exact rssTblInit_isPortMap (rssFamily4 conf) sc (cfgs4 cfgs) (cfgs4_nonzero h4)
  · exact rssTblInit_isPortMap (rssFamily6 conf) sc (cfgs6 cfgs) (cfgs6_nonzero h6)

/-- Two queues on every port, this process on queue 0, and the symmetric key on a NIC that takes
keys of neither 40 nor 52 bytes, for which `rsskey_len` is 0. -/
def shortKeyConf : RssConf where
  rsskey_len := 0
  rsskey n := if n % 2 = 0 then 0x6d else 0x5a
  nb_queue_list _ := 2
  rss_reta_size _ := 128
  tx_queue_id _ := 0

/-- One IPv4 entry: remote address 1.0.0.0, remote port 80, local address 2.0.0.0. -/
def oneCfg : List RssTblCfg := [⟨0, 0x5000, 2, 1, .inet, fun _ => 0, fun _ => 0⟩]

/-- Three IPv4 entries and two IPv6 ones: the second has the index of the first, and the third shares the slot of the first
and the index of its local address; and so the two for IPv6. -/
def collidingCfgs : List RssTblCfg :=
  oneCfg ++ [⟨0, 0x5000, 2, 17, .inet, fun _ => 0, fun _ => 0⟩, ⟨0, 0x5000, 6, 1, .inet, fun _ => 0, fun _ => 0⟩,
    ⟨0, 0x5000, 0, 0, .inet6, fun _ => 1, fun i => if i.val = 15 then 1 else 0⟩,
    ⟨0, 0x5000, 0, 0, .inet6, fun _ => 2, fun i => if i.val = 15 then 1 else 0⟩]

theorem ffRssTbl_isPortMap_colliding :
    IsPortMap (ffRssTblInit shortKeyConf true collidingCfgs)
        (ffRssTblGetPortrange shortKeyConf true (ffRssTblInit shortKeyConf true collidingCfgs).tbl)
        (ListedPort (rssFamily4 shortKeyConf)) ∧
      IsPortMap (ffRssTbl6Init shortKeyConf true collidingCfgs)
        (ffRssTbl6GetPortrange shortKeyConf true (ffRssTbl6Init shortKeyConf true collidingCfgs).tbl)
        (ListedPort (rssFamily6 shortKeyConf)) :=
  ffRssTbl_isPortMap shortKeyConf true collidingCfgs (by decide) (by decide)

theorem rssTblInit_ignores_iff_colliding :
    (rssTblInsert (rssFamily4 shortKeyConf)
        (rssTblInit (rssFamily4 shortKeyConf) true (cfgs4 collidingCfgs)).tbl ⟨0, 6, 1, 0x5000⟩).2 ≠ .inserted ↔
      NoPlace (rssFamily4 shortKeyConf) (rssTblInit (rssFamily4 shortKeyConf) true (cfgs4 collidingCfgs)).tbl
        ⟨0, 6, 1, 0x5000⟩ :=
  rssTblInit_ignores_iff _ (by decide) _

/-- With that key every local port passes the check for the entry, because the key has
run out before the hash gets to the port. -/
theorem shortKeyConf_check (dport : UInt16) : ffRssCheck shortKeyConf 0 1 2 0x5000 dport = true := by
  have hhash : ∀ b : List UInt8, b.length = 2 → toeplitzHash 0 shortKeyConf.rsskey
      (bytes32 1 ++ bytes32 2 ++ bytes16 0x5000 ++ b) =
      toeplitzHash 0 shortKeyConf.rsskey (bytes32 1 ++ bytes32 2 ++ bytes16 0x5000) := by
    intro b hb
    have hlen : (bytes32 1 ++ bytes32 2 ++ bytes16 0x5000).length = 10 := rfl
    apply toeplitzHash_of_exhausted _ (by rw [List.length_append]; omega)
    intro n hn
    rw [hlen] at hn
    rw [hashKeyBit, decide_eq_false (by omega), Bool.false_and]
  have hconf : shortKeyConf.rsskey_len = 0 := rfl
  rw [ffRssCheck, if_neg (by decide), hconf]
  dsimp only
  rw [hhash _ rfl]
  decide

/-- The list of the entry lacks port 65535, which passes the check. -/
theorem shortKeyConf_not_isPortMap :
    ¬ IsPortMap (ffRssTblInit shortKeyConf true oneCfg)
      (ffRssTblGetPortrange shortKeyConf true (ffRssTblInit shortKeyConf true oneCfg).tbl)
      (fun c p => p < 65536 ∧
        ffRssCheck shortKeyConf c.port_id c.saddr c.daddr c.sport (htons (UInt16.ofNat p)) = true) := by
  intro hmap
  have hlog : ((⟨0, 2, 1, 0x5000⟩ : RssTuple UInt32), InitOutcome.inserted) ∈
      (ffRssTblInit shortKeyConf true oneCfg).log := by
    have hcfg : cfgs4 oneCfg = [⟨0, 2, 1, 0x5000⟩] := rfl
    rw [ffRssTblInit, hcfg, rssTblInit_single_log]
    exact List.mem_cons_self
  obtain ⟨range, hget, -, hports⟩ := hmap.1 _ hlog
  obtain ⟨range', hget', -, hports'⟩ :=
    (rssTblInit_isPortMap (rssFamily4 shortKeyConf) true (cfgs4 oneCfg) (by decide)).1 _ hlog
  have hrange : range = range' := Except.ok.inj (hget.symm.trans hget')
  subst hrange
  have hin := (hports 65535).mpr ⟨by omega, shortKeyConf_check _⟩
  obtain ⟨-, -, hlast⟩ := (hports' 65535).mp hin
  obtain ⟨q, -, hfail⟩ := hlast rfl
  have hpass := shortKeyConf_check (htons (UInt16.ofNat q))
  exact Bool.false_ne_true (hfail.symm.trans hpass)

end FStack.Analysis
