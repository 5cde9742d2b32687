import FStack.Model.HeapList
import FStack.Prelude.BinaryHeap
import FStack.Prelude.Monitored
import Mathlib.Data.Finset.Basic

/-!
# What the heap operations keep
-/

set_option autoImplicit false

namespace FStack.Analysis

open FStack.Prelude FStack.Model

variable {ε : Type}
variable {i j pos : ℕ} {e item : ε}

/-- The places `1, …, count` hold entries that know their place, and every entry that has a place stands
there.  The entry `out`, if there is one, has been taken from its place but still has an index. -/
structure Indexed (h : HeapList ε) (out : Option ε) : Prop where
  filled : ∀ i, 1 ≤ i → i ≤ h.count → ∃ e, h.list i = some e ∧ some e ≠ out ∧ h.index e = i
  placed : ∀ e, some e ≠ out → h.index e ≠ 0 → h.index e ≤ h.count ∧ h.list (h.index e) = some e

/-- Entries have moved inside the heap, and nothing else has changed. -/
structure Rearranged (h h' : HeapList ε) (out : Option ε) : Prop where
  indexed : Indexed h' out
  max_eq : h'.max = h.max
  count_eq : h'.count = h.count
  index_eq_zero : ∀ e, h'.index e = 0 ↔ h.index e = 0
  out_index : ∀ e, some e = out → h'.index e = h.index e

variable {h h' h'' : HeapList ε} {out : Option ε} {value : ε → ℕ}

theorem Indexed.refl_rearranged (hi : Indexed h out) : Rearranged h h out :=
  ⟨hi, rfl, rfl, fun _ => Iff.rfl, fun _ _ => rfl⟩

theorem Rearranged.trans (h₁ : Rearranged h h' out) (h₂ : Rearranged h' h'' out) :
    Rearranged h h'' out where
  indexed := h₂.indexed
  max_eq := h₂.max_eq.trans h₁.max_eq
  count_eq := h₂.count_eq.trans h₁.count_eq
  index_eq_zero e := (h₂.index_eq_zero e).trans (h₁.index_eq_zero e)
  out_index e he := (h₂.out_index e he).trans (h₁.out_index e he)

/-- Two places do not hold one entry. -/
theorem Indexed.list_inj (hi : Indexed h out) (h1 : 1 ≤ i) (hin : i ≤ h.count) (hj : 1 ≤ j) (hjn : j ≤ h.count)
    (hie : h.list i = some e) (hje : h.list j = some e) : i = j := by
  obtain ⟨a, ha, -, hai⟩ := hi.filled i h1 hin
  obtain ⟨b, hb, -, hbj⟩ := hi.filled j hj hjn
  rw [ha] at hie
  rw [hb] at hje
  cases hie
  cases hje
  exact hai.symm.trans hbj

variable [DecidableEq ε]

/-! ## Exchanging two entries -/

theorem swapAt_list (h : HeapList ε) (hij : i ≠ j) (l : ℕ) :
    (h.swapAt i j).list l = h.list (Equiv.swap i j l) := by
  have hraw : (h.swapAt i j).list =
      Function.update (Function.update h.list j (h.list i)) i (h.list j) := by
    simp [HeapList.swapAt, HeapList.setSlot]
  rw [hraw]
  by_cases hli : l = i
  · subst hli
    simp
  · rw [Function.update_of_ne hli]
    by_cases hlj : l = j
    · subst hlj
      simp
    · rw [Function.update_of_ne hlj, Equiv.swap_apply_of_ne_of_ne hli hlj]

theorem swapAt_valueAt (h : HeapList ε) (hij : i ≠ j) :
    (h.swapAt i j).valueAt value = h.valueAt value ∘ Equiv.swap i j := by
  funext l
  simp only [HeapList.valueAt, Function.comp, swapAt_list h hij]

theorem swapAt_count (h : HeapList ε) (i j : ℕ) :
    (h.swapAt i j).count = h.count ∧ (h.swapAt i j).max = h.max := by
  simp [HeapList.swapAt, HeapList.setSlot]

theorem swapAt_index (h : HeapList ε) (hij : i ≠ j) {a b : ε} (ha : h.list i = some a) (hb : h.list j = some b) :
    (h.swapAt i j).index = Function.update (Function.update h.index b i) a j := by
  simp [HeapList.swapAt, HeapList.setIndexAt, HeapList.setSlot, HeapList.setIndex, ha, hb, hij.symm]

theorem Indexed.swapAt (hi : Indexed h out) (hij : i ≠ j) (h1 : 1 ≤ i) (hin : i ≤ h.count) (hj : 1 ≤ j)
    (hjn : j ≤ h.count) : Rearranged h (h.swapAt i j) out := by
  obtain ⟨a, ha, haout, hai⟩ := hi.filled i h1 hin
  obtain ⟨b, hb, hbout, hbj⟩ := hi.filled j hj hjn
  have hab : a ≠ b := by
    rintro rfl
    exact hij (hi.list_inj h1 hin hj hjn ha hb)
  have hindex := swapAt_index h hij ha hb
  have hia : (h.swapAt i j).index a = j := by rw [hindex, Function.update_self]
  have hib : (h.swapAt i j).index b = i := by
    rw [hindex, Function.update_of_ne hab.symm, Function.update_self]
  have hio : ∀ e, e ≠ a → e ≠ b → (h.swapAt i j).index e = h.index e := by
    intro e h1 h2
    rw [hindex, Function.update_of_ne h1, Function.update_of_ne h2]
  have hcount := (swapAt_count h i j).1
  refine ⟨⟨?_, ?_⟩, (swapAt_count h i j).2, hcount, ?_, ?_⟩
  · intro l hl hln
    rw [hcount] at hln
    rw [swapAt_list h hij]
    by_cases hli : l = i
    · subst hli
      exact ⟨b, by rw [Equiv.swap_apply_left, hb], hbout, hib⟩
    · by_cases hlj : l = j
      · subst hlj
        exact ⟨a, by rw [Equiv.swap_apply_right, ha], haout, hia⟩
      · obtain ⟨e, he, heout, hidx⟩ := hi.filled l hl hln
        refine ⟨e, by rw [Equiv.swap_apply_of_ne_of_ne hli hlj, he], heout, ?_⟩
        rw [hio e, hidx]
        · rintro rfl
          exact hli (hidx.symm.trans hai)
        · rintro rfl
          exact hlj (hidx.symm.trans hbj)
  · intro e heout hne
    rw [swapAt_list h hij, hcount]
    by_cases hea : e = a
    · subst hea
      rw [hia]
      exact ⟨hjn, by rw [Equiv.swap_apply_right, ha]⟩
    · by_cases heb : e = b
      · subst heb
        rw [hib]
        exact ⟨hin, by rw [Equiv.swap_apply_left, hb]⟩
      · rw [hio e hea heb] at hne ⊢
        obtain ⟨hle, hlist⟩ := hi.placed e heout hne
        refine ⟨hle, ?_⟩
        rw [Equiv.swap_apply_of_ne_of_ne, hlist]
        · intro heq
          rw [heq, ha] at hlist
          exact hea (Option.some.inj hlist).symm
        · intro heq
          rw [heq, hb] at hlist
          exact heb (Option.some.inj hlist).symm
  · intro e
    by_cases hea : e = a
    · subst hea
      rw [hia, hai]
      omega
    · by_cases heb : e = b
      · subst heb
        rw [hib, hbj]
        omega
      · rw [hio e hea heb]
  · intro e he
    apply hio
    · rintro rfl
      exact haout he
    · rintro rfl
      exact hbout he

/-! ## Sifting -/

theorem heapUpFrom_rearranged (turns : ℕ) (hi : Indexed h out) (hpos : pos ≤ h.count) :
    Rearranged h (h.heapUpFrom value turns pos) out := by
  induction turns generalizing pos h with
  | zero => exact hi.refl_rearranged
  | succ turns ih =>
    unfold HeapList.heapUpFrom
    split
    · exact hi.refl_rearranged
    · split
      · have hswap : Rearranged h (h.swapAt pos (pos / 2)) out := by
          apply hi.swapAt <;> omega
        apply hswap.trans
        apply ih hswap.indexed
        rw [hswap.count_eq]
        omega
      · exact hi.refl_rearranged

theorem heapUpFrom_ordered {turns : ℕ} (hturns : pos ≤ turns) (hpos : pos ≤ h.count)
    (hup : UpReady (h.valueAt value) h.count pos) :
    HeapOrdered ((h.heapUpFrom value turns pos).valueAt value) h.count := by
  induction turns generalizing pos h with
  | zero => exact hup.finish (by omega)
  | succ turns ih =>
    unfold HeapList.heapUpFrom
    split
    · exact hup.finish (by omega)
    · split
      · rename_i hlt
        have hne : pos ≠ pos / 2 := by omega
        have hstep := hup.swap (by omega) hpos hlt
        rw [← swapAt_valueAt h hne, ← (swapAt_count h pos (pos / 2)).1] at hstep
        have hrest := ih (by omega) (by rw [(swapAt_count h pos (pos / 2)).1]; omega) hstep
        rwa [(swapAt_count h pos (pos / 2)).1] at hrest
      · rename_i hle
        exact hup.finish fun _ => not_lt.mp hle

omit [DecidableEq ε] in
theorem minSon_spec (value : ε → ℕ) (h : HeapList ε) (hson : pos * 2 ≤ h.count) :
    h.minSon value pos / 2 = pos ∧ pos * 2 ≤ h.minSon value pos ∧ h.minSon value pos ≤ h.count ∧
      ∀ i, i ≤ h.count → i / 2 = pos → h.valueAt value (h.minSon value pos) ≤ h.valueAt value i := by
  have hsons : ∀ i, i / 2 = pos → i = pos * 2 ∨ i = pos * 2 + 1 := by
    intro i hi
    omega
  unfold HeapList.minSon
  split
  · refine ⟨by omega, by omega, by omega, ?_⟩
    intro i hin hi
    rw [show i = pos * 2 by omega]
  · split
    · rename_i hlt
      refine ⟨by omega, by omega, by omega, ?_⟩
      intro i _ hi
      obtain rfl | rfl := hsons i hi
      · exact hlt.le
      · exact le_rfl
    · rename_i hle
      refine ⟨by omega, by omega, by omega, ?_⟩
      intro i _ hi
      obtain rfl | rfl := hsons i hi
      · exact le_rfl
      · exact not_lt.mp hle

theorem heapDownFrom_rearranged (turns : ℕ) (hi : Indexed h out) (hpos : 1 ≤ pos) :
    Rearranged h (h.heapDownFrom value turns pos) out := by
  induction turns generalizing pos h with
  | zero => exact hi.refl_rearranged
  | succ turns ih =>
    unfold HeapList.heapDownFrom
    split
    · exact hi.refl_rearranged
    · have hson : pos * 2 ≤ h.count := by omega
      obtain ⟨_, hge, hle, -⟩ := minSon_spec value h hson
      split
      · have hswap : Rearranged h (h.swapAt pos (h.minSon value pos)) out := by
          apply hi.swapAt <;> omega
        apply hswap.trans
        apply ih hswap.indexed
        omega
      · exact hi.refl_rearranged

theorem heapDownFrom_ordered {turns : ℕ} (hpos : 1 ≤ pos) (hturns : h.count < turns + pos)
    (hdown : DownReady (h.valueAt value) h.count pos) :
    HeapOrdered ((h.heapDownFrom value turns pos).valueAt value) h.count := by
  induction turns generalizing pos h with
  | zero => exact hdown.finish (by omega)
  | succ turns ih =>
    unfold HeapList.heapDownFrom
    split
    · exact hdown.finish (by omega)
    · have hson : pos * 2 ≤ h.count := by omega
      obtain ⟨hhalf, hge, hle, hmin⟩ := minSon_spec value h hson
      have hcount := (swapAt_count h pos (h.minSon value pos)).1
      split
      · rename_i hlt
        have hne : pos ≠ h.minSon value pos := by omega
        have hstep := hdown.swap hhalf hle (fun i _ hin hi => hmin i hin hi) hlt
        rw [← swapAt_valueAt h hne, ← hcount] at hstep
        have hrest := ih (by omega) (by rw [hcount]; omega) hstep
        rwa [hcount] at hrest
      · rename_i hge'
        apply hdown.finish
        intro i _ hin hi
        exact (not_lt.mp hge').trans (hmin i hin hi)

/-! ## Taking an entry out -/

theorem moveLast_list (h : HeapList ε) (hin : i < h.count) :
    (h.moveLast pos).list i = if i = pos then h.list h.count else h.list i := by
  have hraw : (h.moveLast pos).list =
      Function.update (Function.update h.list pos (h.list h.count)) h.count none := by
    simp [HeapList.moveLast, HeapList.setSlot]
  rw [hraw, Function.update_of_ne (by omega)]
  by_cases hip : i = pos
  · rw [hip, Function.update_self, if_pos rfl]
  · rw [Function.update_of_ne hip, if_neg hip]

theorem moveLast_count (h : HeapList ε) (pos : ℕ) :
    (h.moveLast pos).count = h.count - 1 ∧ (h.moveLast pos).max = h.max := by
  simp [HeapList.moveLast, HeapList.setSlot]

theorem moveLast_index (h : HeapList ε) {last : ε} (hlast : h.list h.count = some last) :
    (h.moveLast pos).index = Function.update h.index last pos := by
  have hslot : (h.setSlot pos (h.list h.count)).list pos = some last := by
    simp [HeapList.setSlot, hlast]
  simp only [HeapList.moveLast]
  exact HeapList.setIndexAt_index _ hslot

theorem moveLast_valueAt (h : HeapList ε) (hin : i < h.count) :
    (h.moveLast pos).valueAt value i =
      if i = pos then h.valueAt value h.count else h.valueAt value i := by
  unfold HeapList.valueAt
  rw [moveLast_list h hin]
  split <;> rfl

/-- The place of `del` is filled by the last entry, and `del` keeps its index. -/
theorem Indexed.moveLast (hi : Indexed h none) {del : ε} (hpos : 1 ≤ pos) (hposn : pos ≤ h.count)
    (hdel : h.list pos = some del) :
    Indexed (h.moveLast pos) (some del) ∧ (h.moveLast pos).index del = pos ∧
      ∀ e, (h.moveLast pos).index e = 0 ↔ h.index e = 0 := by
  obtain ⟨last, hlast, -, hlasti⟩ := hi.filled h.count (by omega) le_rfl
  have hdeli : h.index del = pos := by
    obtain ⟨e, he, -, hei⟩ := hi.filled pos hpos hposn
    rw [hdel] at he
    cases he
    exact hei
  have hindex : (h.moveLast pos).index = Function.update h.index last pos := moveLast_index h hlast
  have hcount := (moveLast_count h pos).1
  have hil : (h.moveLast pos).index last = pos := by rw [hindex, Function.update_self]
  have hio : ∀ e, e ≠ last → (h.moveLast pos).index e = h.index e := by
    intro e he
    rw [hindex, Function.update_of_ne he]
  have hid : (h.moveLast pos).index del = pos := by
    by_cases hdl : del = last
    · rw [hdl, hil]
    · rw [hio del hdl, hdeli]
  have hne : ∀ {i e}, 1 ≤ i → i ≤ h.count → h.list i = some e → i ≠ pos → e ≠ del := by
    rintro i e h1 hin hie hip rfl
    exact hip (hi.list_inj h1 hin hpos hposn hie hdel)
  refine ⟨⟨?_, ?_⟩, hid, ?_⟩
  · intro i h1 hin
    rw [hcount] at hin
    rw [moveLast_list h (by omega)]
    by_cases hip : i = pos
    · rw [if_pos hip]
      refine ⟨last, hlast, ?_, by rw [hil, hip]⟩
      intro heq
      exact hne (by omega) le_rfl hlast (by omega) (Option.some.inj heq)
    · rw [if_neg hip]
      obtain ⟨e, he, -, hei⟩ := hi.filled i h1 (by omega)
      refine ⟨e, he, ?_, ?_⟩
      · intro heq
        exact hne h1 (by omega) he hip (Option.some.inj heq)
      · rw [hio e, hei]
        rintro rfl
        omega
  · intro e heout hidx
    have hed : e ≠ del := fun heq => heout (congrArg some heq)
    by_cases hel : e = last
    · subst hel
      have hposlt : pos ≠ h.count := by
        rintro rfl
        exact hed (Option.some.inj (hlast.symm.trans hdel))
      rw [hil, hcount, moveLast_list h (by omega), if_pos rfl]
      exact ⟨by omega, hlast⟩
    · rw [hio e hel] at hidx ⊢
      obtain ⟨hle, hlist⟩ := hi.placed e (by simp) hidx
      have hlt : h.index e ≠ h.count := by
        intro heq
        rw [heq, hlast] at hlist
        exact hel (Option.some.inj hlist).symm
      have hnp : h.index e ≠ pos := by
        intro heq
        rw [heq, hdel] at hlist
        exact hed (Option.some.inj hlist).symm
      rw [hcount, moveLast_list h (by omega), if_neg hnp]
      exact ⟨by omega, hlist⟩
  · intro e
    by_cases hel : e = last
    · rw [hel, hil, hlasti]
      omega
    · rw [hio e hel]

/-- The keys below a hole that the last entry fills. -/
theorem DownReady.moveLast (hpos : 1 ≤ pos) (hposn : pos ≤ h.count) (hord : HeapOrdered (h.valueAt value) h.count)
    (hlast : 2 ≤ pos → pos < h.count → h.valueAt value (pos / 2) ≤ h.valueAt value h.count) :
    DownReady ((h.moveLast pos).valueAt value) (h.count - 1) pos := by
  constructor
  · intro i hi hin hip
    rw [moveLast_valueAt h (by omega), moveLast_valueAt h (by omega), if_neg hip]
    by_cases heq : i = pos
    · rw [if_pos heq, heq]
      exact hlast (by omega) (by omega)
    · rw [if_neg heq]
      exact hord i hi (by omega)
  · intro i hp hin hip
    rw [moveLast_valueAt h (by omega), moveLast_valueAt h (by omega), if_neg (by omega),
      if_neg (by omega)]
    have hup := hord pos hp hposn
    have hson := hord i (by omega) (by omega)
    rw [hip] at hson
    exact hup.trans hson

/-- The entry at a place leaves the heap. -/
structure TakenOut (h h' : HeapList ε) (del : ε) : Prop where
  indexed : Indexed h' none
  max_eq : h'.max = h.max
  count_eq : h'.count = h.count - 1
  index_eq_zero : ∀ e, h'.index e = 0 ↔ e = del ∨ h.index e = 0

theorem fillHole_takenOut (value : ε → ℕ) (hi : Indexed h none) {del : ε} (hpos : 1 ≤ pos) (hposn : pos ≤ h.count)
    (hdel : h.list pos = some del) :
    TakenOut h ((h.fillHole value pos).setIndex del 0) del := by
  obtain ⟨hmove, hdeli, hzero⟩ := hi.moveLast hpos hposn hdel
  have hsift : Rearranged (h.moveLast pos) (h.fillHole value pos) (some del) :=
    heapDownFrom_rearranged _ hmove hpos
  have hio : ∀ e, e ≠ del →
      ((h.fillHole value pos).setIndex del 0).index e = (h.fillHole value pos).index e :=
    fun e he => Function.update_of_ne he _ _
  have hid : ((h.fillHole value pos).setIndex del 0).index del = 0 := Function.update_self _ _ _
  refine ⟨⟨?_, ?_⟩, ?_, ?_, ?_⟩
  · intro i h1 hin
    obtain ⟨e, he, hout, hei⟩ := hsift.indexed.filled i h1 hin
    refine ⟨e, he, by simp, ?_⟩
    rw [hio e, hei]
    rintro rfl
    exact hout rfl
  · intro e _ hidx
    have hed : e ≠ del := by
      rintro rfl
      exact hidx hid
    rw [hio e hed] at hidx ⊢
    exact hsift.indexed.placed e (by simpa using hed) hidx
  · exact hsift.max_eq.trans (moveLast_count h pos).2
  · exact hsift.count_eq.trans (moveLast_count h pos).1
  · intro e
    by_cases hed : e = del
    · simp [hed, hid]
    · rw [hio e hed, hsift.index_eq_zero, hzero]
      simp [hed]

/-- The keys are in order again exactly when the last entry may stand where it is put. -/
theorem fillHole_ordered_iff (hpos : 1 ≤ pos) (hposn : pos ≤ h.count) (hord : HeapOrdered (h.valueAt value) h.count) :
    HeapOrdered ((h.fillHole value pos).valueAt value) (h.count - 1) ↔
      (2 ≤ pos → pos < h.count → h.valueAt value (pos / 2) ≤ h.valueAt value h.count) := by
  have hcount := (moveLast_count h pos).1
  constructor
  · intro hafter hp hlt
    by_contra hgt
    rw [not_le] at hgt
    -- The sons of the hole have keys that are not smaller, so the last entry stays.
    have hstay : h.fillHole value pos = h.moveLast pos := by
      have hlastpos : (h.moveLast pos).valueAt value pos = h.valueAt value h.count := by
        rw [moveLast_valueAt h (by omega), if_pos rfl]
      unfold HeapList.fillHole HeapList.heapDown
      cases hturns : (h.moveLast pos).count with
      | zero => rfl
      | succ turns =>
        unfold HeapList.heapDownFrom
        split
        · rfl
        · have hsons : pos * 2 ≤ (h.moveLast pos).count := by omega
          obtain ⟨hhalf, hge, hle, -⟩ := minSon_spec value (h.moveLast pos) hsons
          rw [if_neg]
          rw [hlastpos, moveLast_valueAt h (by omega), if_neg (by omega), not_lt]
          have hup := hord pos hp hposn
          have hson := hord ((h.moveLast pos).minSon value pos) (by omega) (by omega)
          rw [hhalf] at hson
          exact (hgt.le.trans hup).trans hson
    have hbad := hafter pos hp (by omega)
    rw [hstay, moveLast_valueAt h (by omega), moveLast_valueAt h (by omega), if_pos rfl,
      if_neg (by omega)] at hbad
    exact absurd hbad (not_le.mpr hgt)
  · intro hlast
    have hdown := DownReady.moveLast hpos hposn hord hlast
    rw [← hcount] at hdown ⊢
    exact heapDownFrom_ordered hpos (by omega) hdown

/-! ## Putting an entry in -/

theorem putLast_list (h : HeapList ε) (item : ε) (i : ℕ) :
    (h.putLast item).list i = if i = h.count + 1 then some item else h.list i := by
  by_cases hi : i = h.count + 1
  · simp [HeapList.putLast, HeapList.setSlot, HeapList.setIndex, hi]
  · simp [HeapList.putLast, HeapList.setSlot, HeapList.setIndex, hi]

theorem putLast_index (h : HeapList ε) (item e : ε) :
    (h.putLast item).index e = if e = item then h.count + 1 else h.index e := by
  by_cases he : e = item
  · simp [HeapList.putLast, HeapList.setSlot, HeapList.setIndex, he]
  · simp [HeapList.putLast, HeapList.setSlot, HeapList.setIndex, he]

theorem Indexed.putLast (hi : Indexed h none) (hidx : h.index item = 0) :
    Indexed (h.putLast item) none := by
  constructor
  · intro i h1 hin
    rw [putLast_list]
    by_cases heq : i = h.count + 1
    · rw [if_pos heq]
      exact ⟨item, rfl, by simp, by rw [putLast_index, if_pos rfl, heq]⟩
    · rw [if_neg heq]
      have hin' : i ≤ h.count + 1 := hin
      obtain ⟨e, he, hout, hei⟩ := hi.filled i h1 (by omega)
      refine ⟨e, he, hout, ?_⟩
      rw [putLast_index, if_neg, hei]
      rintro rfl
      omega
  · intro e hout
    rw [putLast_index]
    by_cases heq : e = item
    · rw [if_pos heq, heq, putLast_list, if_pos rfl]
      exact fun _ => ⟨le_rfl, rfl⟩
    · rw [if_neg heq]
      intro hne
      obtain ⟨hle, hlist⟩ := hi.placed e hout hne
      rw [putLast_list, if_neg (by omega)]
      exact ⟨Nat.le_succ_of_le hle, hlist⟩

theorem UpReady.putLast (hord : HeapOrdered (h.valueAt value) h.count) :
    UpReady ((h.putLast item).valueAt value) (h.count + 1) (h.count + 1) := by
  have hold : ∀ i, i ≤ h.count → (h.putLast item).valueAt value i = h.valueAt value i := by
    intro i hin
    unfold HeapList.valueAt
    rw [putLast_list, if_neg (by omega)]
  constructor
  · intro i hi hin hne
    rw [hold i (by omega), hold (i / 2) (by omega)]
    exact hord i hi (by omega)
  · intro i _ hin hi
    omega

/-- A new entry is in the heap. -/
structure PutIn (h h' : HeapList ε) (item : ε) : Prop where
  indexed : Indexed h' none
  max_eq : h'.max = h.max
  count_eq : h'.count = h.count + 1
  index_eq_zero : ∀ e, h'.index e = 0 ↔ e ≠ item ∧ h.index e = 0

theorem heapPush_putIn (value : ε → ℕ) (hi : Indexed h none) (hroom : h.count < h.max) (hidx : h.index item = 0) :
    (h.heapPush value item).2 = 0 ∧ PutIn h (h.heapPush value item).1 item := by
  have hpush : h.heapPush value item = ((h.putLast item).heapUp value, 0) := by
    unfold HeapList.heapPush
    rw [if_neg (by omega), if_neg (by simpa using hidx)]
  have hsift : Rearranged (h.putLast item) ((h.putLast item).heapUp value) none :=
    heapUpFrom_rearranged _ (hi.putLast hidx) le_rfl
  rw [hpush]
  refine ⟨rfl, hsift.indexed, hsift.max_eq, hsift.count_eq, ?_⟩
  intro e
  rw [hsift.index_eq_zero, putLast_index]
  by_cases he : e = item
  · simp [he]
  · simp [he]

theorem heapPush_ordered (hroom : h.count < h.max) (hidx : h.index item = 0)
    (hord : HeapOrdered (h.valueAt value) h.count) :
    HeapOrdered ((h.heapPush value item).1.valueAt value) (h.count + 1) := by
  have hpush : h.heapPush value item = ((h.putLast item).heapUp value, 0) := by
    unfold HeapList.heapPush
    rw [if_neg (by omega), if_neg (by simpa using hidx)]
  rw [hpush]
  exact heapUpFrom_ordered (h := h.putLast item) le_rfl le_rfl (UpReady.putLast hord)

/-- `HeapDelete` of an entry of the heap. -/
theorem heapDelete_eq (value : ε → ℕ) (hi : Indexed h none) (hidx : h.index item ≠ 0) :
    1 ≤ h.index item ∧ h.index item ≤ h.count ∧ h.list (h.index item) = some item ∧
      h.heapDelete value item = ((h.fillHole value (h.index item)).setIndex item 0, 0) := by
  obtain ⟨hle, hlist⟩ := hi.placed item (by simp) hidx
  refine ⟨by omega, hle, hlist, ?_⟩
  unfold HeapList.heapDelete
  rw [if_neg (by omega)]
  simp only [hlist]
  rw [if_neg (by omega)]

theorem heapDelete_takenOut (value : ε → ℕ) (hi : Indexed h none) (hidx : h.index item ≠ 0) :
    (h.heapDelete value item).2 = 0 ∧ TakenOut h (h.heapDelete value item).1 item := by
  obtain ⟨hpos, hle, hlist, heq⟩ := heapDelete_eq value hi hidx
  rw [heq]
  exact ⟨rfl, fillHole_takenOut value hi hpos hle hlist⟩

/-- `HeapDelete` of an entry that is in no heap changes nothing. -/
theorem heapDelete_of_out (value : ε → ℕ) (h : HeapList ε) (hidx : h.index item = 0) :
    (h.heapDelete value item).1 = h ∧ (h.heapDelete value item).2 ≠ 0 := by
  unfold HeapList.heapDelete
  split
  · simp
  · simp [hidx]

omit [DecidableEq ε] in
/-- The top of a heap is the entry with the index 1. -/
theorem Indexed.heapTop_eq (hi : Indexed h none) {top : ε} (htop : h.heapTop = some top) :
    0 < h.count ∧ h.list 1 = some top ∧ h.index top = 1 := by
  unfold HeapList.heapTop at htop
  split at htop
  · rename_i hcount
    obtain ⟨e, he, -, hei⟩ := hi.filled 1 le_rfl hcount
    rw [htop] at he
    cases he
    exact ⟨hcount, htop, hei⟩
  · cases htop

/-- `HeapPop` takes out the top. -/
theorem heapPop_eq (value : ε → ℕ) (hi : Indexed h none) (hcount : h.count ≠ 0) :
    ∃ top, h.list 1 = some top ∧
      h.heapPop value = ((h.fillHole value 1).setIndex top 0, some top) := by
  obtain ⟨top, htop, -⟩ := hi.filled 1 le_rfl (by omega)
  refine ⟨top, htop, ?_⟩
  simp [HeapList.heapPop, hcount, htop]

/-- `HeapPush` refuses an entry, or has put it in. -/
theorem heapPush_cases (value : ε → ℕ) (h : HeapList ε) (item : ε) :
    h.count < h.max ∧ h.index item = 0 ∨
      (h.heapPush value item).1 = h ∧ (h.heapPush value item).2 ≠ 0 := by
  unfold HeapList.heapPush
  split
  · exact Or.inr ⟨rfl, by simp⟩
  · split
    · exact Or.inr ⟨rfl, by simp⟩
    · left
      constructor
      · omega
      · simpa using ‹¬h.index item ≠ 0›

/-! ## Order -/

/-- A heap whose keys are in order. -/
structure IsHeap (h : HeapList ε) (value : ε → ℕ) : Prop where
  indexed : Indexed h none
  ordered : HeapOrdered (h.valueAt value) h.count

/-- Where `HeapDelete` takes out `e`, the last entry has no smaller key than the parent. -/
def LastFitsAt (h : HeapList ε) (value : ε → ℕ) (e : ε) : Prop :=
  2 ≤ h.index e → h.index e < h.count → h.valueAt value (h.index e / 2) ≤ h.valueAt value h.count

omit [DecidableEq ε] in
theorem IsHeap.empty (max : ℕ) (value : ε → ℕ) : IsHeap (HeapList.new max) value where
  indexed := ⟨fun i h1 hin => by simp [HeapList.new] at hin; omega, fun e _ hne => absurd rfl hne⟩
  ordered i hi hin := by
    simp only [HeapList.new] at hin
    omega

/-- The key of an entry outside the heap does not matter. -/
theorem IsHeap.update (hh : IsHeap h value) (hidx : h.index e = 0) (key : ℕ) :
    IsHeap h (Function.update value e key) := by
  refine ⟨hh.indexed, hh.ordered.congr ?_⟩
  intro i h1 hin
  obtain ⟨a, ha, -, hai⟩ := hh.indexed.filled i h1 hin
  have hae : a ≠ e := by
    rintro rfl
    omega
  simp [HeapList.valueAt, ha, Function.update_of_ne hae]

theorem IsHeap.push (hh : IsHeap h value) (hidx : h.index e = 0) (key : ℕ) :
    IsHeap (h.heapPush (Function.update value e key) e).1 (Function.update value e key) := by
  have hh' := hh.update hidx key
  rcases heapPush_cases (Function.update value e key) h e with ⟨hroom, -⟩ | ⟨hsame, -⟩
  · obtain ⟨-, hput⟩ := heapPush_putIn (Function.update value e key) hh.indexed hroom hidx
    refine ⟨hput.indexed, ?_⟩
    rw [hput.count_eq]
    exact heapPush_ordered hroom hidx hh'.ordered
  · rw [hsame]
    exact hh'

theorem IsHeap.delete_ordered_iff (hh : IsHeap h value) (e : ε) :
    HeapOrdered ((h.heapDelete value e).1.valueAt value) (h.heapDelete value e).1.count ↔
      LastFitsAt h value e := by
  unfold LastFitsAt
  by_cases hidx : h.index e = 0
  · rw [(heapDelete_of_out value h hidx).1, hidx]
    exact iff_of_true hh.ordered (by omega)
  · obtain ⟨hpos, hle, hlist, heq⟩ := heapDelete_eq value hh.indexed hidx
    have hout := fillHole_takenOut value hh.indexed hpos hle hlist
    rw [heq, hout.count_eq]
    exact fillHole_ordered_iff hpos hle hh.ordered

theorem Indexed.delete (hi : Indexed h none) (value : ε → ℕ) (e : ε) :
    Indexed (h.heapDelete value e).1 none := by
  by_cases hidx : h.index e = 0
  · rw [(heapDelete_of_out value h hidx).1]
    exact hi
  · exact (heapDelete_takenOut value hi hidx).2.indexed

theorem IsHeap.delete (hh : IsHeap h value) (hfits : LastFitsAt h value e) :
    IsHeap (h.heapDelete value e).1 value :=
  ⟨hh.indexed.delete value e, (hh.delete_ordered_iff e).mpr hfits⟩

omit [DecidableEq ε] in
theorem Indexed.lastFitsAt_top (hi : Indexed h none) {top : ε} (htop : h.heapTop = some top) :
    LastFitsAt h value top := by
  obtain ⟨-, -, hidx⟩ := hi.heapTop_eq htop
  intro hpos
  omega

omit [DecidableEq ε] in
/-- In a heap whose top is later than `now`, or that has none, every entry is later. -/
theorem IsHeap.lt_of_top {now : ℕ} (hh : IsHeap h value) (htop : ∀ top, h.heapTop = some top → now < value top)
    (he : h.index e ≠ 0) :
    now < value e := by
  obtain ⟨hle, hlist⟩ := hh.indexed.placed e (by simp) he
  obtain ⟨top, htop1, -, htopi⟩ := hh.indexed.filled 1 le_rfl (by omega)
  have hfirst : h.heapTop = some top := by
    unfold HeapList.heapTop
    rw [if_pos (by omega), htop1]
  have hmin := hh.ordered.top_le (Nat.one_le_iff_ne_zero.mpr he) hle
  simp only [HeapList.valueAt, htop1, hlist, Option.map_some, Option.getD_some] at hmin
  exact (htop top hfirst).trans_le hmin

/-! ## Runs -/

/-- A call for a heap.  The key of an entry is set before the entry is pushed, and only then. -/
inductive HeapOp (ε : Type) where
  | push (e : ε) (key : ℕ)
  | pop
  | delete (e : ε)

/-- A heap, the keys of all entries, and the entries that have been pushed and not yet removed. -/
structure HeapRun (ε : Type) where
  heap : HeapList ε
  value : ε → ℕ
  members : Finset ε

def HeapRun.new (max : ℕ) (value : ε → ℕ) : HeapRun ε :=
  { heap := HeapList.new max, value := value, members := ∅ }

def HeapRun.step (s : HeapRun ε) : HeapOp ε → HeapRun ε
  | .push e key =>
    let value := if s.heap.index e = 0 then Function.update s.value e key else s.value
    let res := s.heap.heapPush value e
    { heap := res.1, value := value, members := if res.2 = 0 then insert e s.members else s.members }
  | .pop =>
    let res := s.heap.heapPop s.value
    { s with
      heap := res.1
      members := match res.2 with
        | some top => s.members.erase top
        | none => s.members }
  | .delete e =>
    let res := s.heap.heapDelete s.value e
    { s with heap := res.1, members := if res.2 = 0 then s.members.erase e else s.members }

/-- The heap is one: the places hold exactly the members, each of them once, the index of an entry is
its place, or 0, and no entry has a smaller key than its parent. -/
structure HeapOk (s : HeapRun ε) : Prop where
  member_iff : ∀ e, e ∈ s.members ↔ ∃ i, 1 ≤ i ∧ i ≤ s.heap.count ∧ s.heap.list i = some e
  filled : ∀ i, 1 ≤ i → i ≤ s.heap.count → ∃ e, s.heap.list i = some e ∧ s.heap.index e = i
  outside : ∀ e, e ∉ s.members → s.heap.index e = 0
  ordered : HeapOrdered (s.heap.valueAt s.value) s.heap.count

/-- A deletion puts the last entry where its key is not smaller than that of the parent. -/
def LastFits (s : HeapRun ε) : HeapOp ε → Prop
  | .delete e => LastFitsAt s.heap s.value e
  | _ => True

/-- The part of `HeapOk` that holds in every run. -/
structure HeapTracked (s : HeapRun ε) : Prop where
  indexed : Indexed s.heap none
  member_iff : ∀ e, e ∈ s.members ↔ s.heap.index e ≠ 0

omit [DecidableEq ε] in
theorem heapOk_iff (s : HeapRun ε) :
    HeapOk s ↔ HeapTracked s ∧ HeapOrdered (s.heap.valueAt s.value) s.heap.count := by
  constructor
  · intro hok
    have hplace : ∀ e, e ∈ s.members →
        s.heap.index e ≠ 0 ∧ s.heap.index e ≤ s.heap.count ∧ s.heap.list (s.heap.index e) = some e := by
      intro e he
      obtain ⟨i, h1, hin, hlist⟩ := (hok.member_iff e).mp he
      obtain ⟨e', he', hidx⟩ := hok.filled i h1 hin
      rw [hlist] at he'
      cases he'
      rw [hidx]
      exact ⟨by omega, hin, hlist⟩
    have hmem : ∀ e, e ∈ s.members ↔ s.heap.index e ≠ 0 :=
      fun e => ⟨fun he => (hplace e he).1, fun hne => by_contra fun he => hne (hok.outside e he)⟩
    refine ⟨⟨⟨?_, ?_⟩, hmem⟩, hok.ordered⟩
    · intro i h1 hin
      obtain ⟨e, he, hidx⟩ := hok.filled i h1 hin
      exact ⟨e, he, by simp, hidx⟩
    · intro e _ hne
      exact (hplace e ((hmem e).mpr hne)).2
  · rintro ⟨ht, hord⟩
    refine ⟨?_, ?_, ?_, hord⟩
    · intro e
      rw [ht.member_iff]
      constructor
      · intro hne
        obtain ⟨hle, hlist⟩ := ht.indexed.placed e (by simp) hne
        exact ⟨s.heap.index e, by omega, hle, hlist⟩
      · rintro ⟨i, h1, hin, hlist⟩
        obtain ⟨e', he', -, hidx⟩ := ht.indexed.filled i h1 hin
        rw [hlist] at he'
        cases he'
        omega
    · intro i h1 hin
      obtain ⟨e, he, -, hidx⟩ := ht.indexed.filled i h1 hin
      exact ⟨e, he, hidx⟩
    · intro e he
      by_contra hne
      exact he ((ht.member_iff e).mpr hne)

omit [DecidableEq ε] in
theorem HeapOk.new (max : ℕ) (value : ε → ℕ) : HeapOk (HeapRun.new max value) := by
  rw [heapOk_iff]
  have hempty := IsHeap.empty max value
  refine ⟨⟨hempty.indexed, ?_⟩, hempty.ordered⟩
  intro e
  simp [HeapRun.new, HeapList.new]

variable {s : HeapRun ε}

theorem HeapTracked.step (ht : HeapTracked s) (op : HeapOp ε) : HeapTracked (s.step op) := by
  cases op with
  | push e key =>
    simp only [HeapRun.step]
    generalize hv : (if s.heap.index e = 0 then Function.update s.value e key else s.value) = value
    rcases heapPush_cases value s.heap e with ⟨hroom, hidx⟩ | ⟨hsame, hret⟩
    · obtain ⟨hret, hput⟩ := heapPush_putIn value ht.indexed hroom hidx
      refine ⟨hput.indexed, ?_⟩
      intro a
      have hzero := hput.index_eq_zero a
      rw [if_pos hret, Finset.mem_insert, ht.member_iff]
      dsimp only
      tauto
    · rw [if_neg hret, hsame]
      exact ⟨ht.indexed, ht.member_iff⟩
  | pop =>
    simp only [HeapRun.step]
    by_cases hcount : s.heap.count = 0
    · have hpop : s.heap.heapPop s.value = (s.heap, none) := by simp [HeapList.heapPop, hcount]
      rw [hpop]
      exact ⟨ht.indexed, ht.member_iff⟩
    · obtain ⟨top, htop, hpop⟩ := heapPop_eq s.value ht.indexed hcount
      have hout := fillHole_takenOut s.value ht.indexed le_rfl (by omega) htop
      rw [hpop]
      refine ⟨hout.indexed, ?_⟩
      intro a
      have hzero := hout.index_eq_zero a
      rw [Finset.mem_erase, ht.member_iff]
      dsimp only
      tauto
  | delete e =>
    simp only [HeapRun.step]
    by_cases hidx : s.heap.index e = 0
    · obtain ⟨hsame, hret⟩ := heapDelete_of_out s.value s.heap hidx
      rw [if_neg hret, hsame]
      exact ⟨ht.indexed, ht.member_iff⟩
    · obtain ⟨hret, hout⟩ := heapDelete_takenOut s.value ht.indexed hidx
      refine ⟨hout.indexed, ?_⟩
      intro a
      have hzero := hout.index_eq_zero a
      rw [if_pos hret, Finset.mem_erase, ht.member_iff]
      dsimp only
      tauto

/-- A step keeps the order exactly when it is no deletion that puts the last entry above its place. -/
theorem HeapTracked.ordered_step_iff (ht : HeapTracked s)
    (hord : HeapOrdered (s.heap.valueAt s.value) s.heap.count) (op : HeapOp ε) :
    HeapOrdered ((s.step op).heap.valueAt (s.step op).value) (s.step op).heap.count ↔
      LastFits s op := by
  have hheap : IsHeap s.heap s.value := ⟨ht.indexed, hord⟩
  cases op with
  | push e key =>
    simp only [HeapRun.step, LastFits, iff_true]
    by_cases hidx : s.heap.index e = 0
    · rw [if_pos hidx]
      exact (hheap.push hidx key).ordered
    · rw [if_neg hidx]
      rcases heapPush_cases s.value s.heap e with ⟨-, hzero⟩ | ⟨hsame, -⟩
      · exact absurd hzero hidx
      · rw [hsame]
        exact hord
  | pop =>
    simp only [HeapRun.step, LastFits, iff_true]
    by_cases hcount : s.heap.count = 0
    · have hpop : s.heap.heapPop s.value = (s.heap, none) := by simp [HeapList.heapPop, hcount]
      rw [hpop]
      exact hord
    · obtain ⟨top, htop, hpop⟩ := heapPop_eq s.value ht.indexed hcount
      have hout := fillHole_takenOut s.value ht.indexed le_rfl (by omega) htop
      rw [hpop, hout.count_eq]
      exact (fillHole_ordered_iff le_rfl (by omega) hord).mpr (by omega)
  | delete e => exact hheap.delete_ordered_iff e

/-- A step leaves a heap exactly when it is no deletion that puts the last entry above its place. -/
theorem HeapOk.step_iff (hok : HeapOk s) (op : HeapOp ε) : HeapOk (s.step op) ↔ LastFits s op := by
  obtain ⟨ht, hord⟩ := (heapOk_iff s).mp hok
  rw [heapOk_iff, ht.ordered_step_iff hord op]
  exact and_iff_right (ht.step op)

/-- Every step of a run leaves a heap exactly when every deletion puts the last entry where it fits. -/
theorem HeapOk.run_iff (hok : HeapOk s) (ops : List (HeapOp ε)) :
    AllSteps HeapRun.step (fun s op => HeapOk (s.step op)) s ops ↔
      AllSteps HeapRun.step LastFits s ops :=
  allSteps_iff (I := HeapOk) (D := fun _ => True) (fun _ op hs _ hq => (hs.step_iff op).mpr hq)
    (fun _ op hs _ => hs.step_iff op) hok (fun _ _ => trivial)

/-- What `n` calls of `HeapPop` return. -/
def poppedFrom (s : HeapRun ε) : ℕ → List ε
  | 0 => []
  | n + 1 => (s.heap.heapPop s.value).2.toList ++ poppedFrom (s.step .pop) n

/-- A heap gives its members in the order of their keys. -/
theorem HeapOk.popped (hok : HeapOk s) : (poppedFrom s s.heap.count).Pairwise (fun a b => s.value a ≤ s.value b) ∧
    (poppedFrom s s.heap.count).Nodup ∧ ∀ e, e ∈ poppedFrom s s.heap.count ↔ e ∈ s.members := by
  generalize hn : s.heap.count = n
  induction n generalizing s with
  | zero =>
    refine ⟨List.Pairwise.nil, List.nodup_nil, fun e => iff_of_false List.not_mem_nil ?_⟩
    rw [hok.member_iff]
    rintro ⟨i, h1, hin, -⟩
    omega
  | succ n ih =>
    obtain ⟨ht, hord⟩ := (heapOk_iff s).mp hok
    obtain ⟨top, htop, hpop⟩ := heapPop_eq s.value ht.indexed (by omega)
    have hout := fillHole_takenOut s.value ht.indexed le_rfl (by omega) htop
    have hstep : s.step .pop = ⟨(s.heap.fillHole s.value 1).setIndex top 0, s.value, s.members.erase top⟩ := by
      simp only [HeapRun.step, hpop]
    have hcount : (s.step .pop).heap.count = n := by
      rw [hstep, hout.count_eq]
      omega
    obtain ⟨hsorted, hnodup, hmem⟩ := ih ((hok.step_iff .pop).mpr trivial) hcount
    have hvalue : (s.step .pop).value = s.value := by rw [hstep]
    have hmembers : (s.step .pop).members = s.members.erase top := by rw [hstep]
    rw [hvalue] at hsorted
    simp only [hmembers, Finset.mem_erase] at hmem
    have hlist : poppedFrom s (n + 1) = top :: poppedFrom (s.step .pop) n := by
      rw [poppedFrom, hpop]
      rfl
    have htops : top ∈ s.members := (hok.member_iff top).mpr ⟨1, le_rfl, by omega, htop⟩
    rw [hlist, List.pairwise_cons, List.nodup_cons]
    refine ⟨⟨fun e he => ?_, hsorted⟩, ⟨fun he => ((hmem top).mp he).1 rfl, hnodup⟩, fun e => ?_⟩
    · obtain ⟨i, h1, hin, hi⟩ := (hok.member_iff e).mp ((hmem e).mp he).2
      have hmin := hord.top_le h1 hin
      simpa only [HeapList.valueAt, htop, hi, Option.map_some, Option.getD_some] using hmin
    · rw [List.mem_cons, hmem]
      by_cases he : e = top
      · exact iff_of_true (.inl he) (he ▸ htops)
      · simp [he]

/-- After any run whose deletions leave a heap, `HeapPop` gives the members in the order of their keys, each once, until
there are none. -/
theorem heap_sorts (max : ℕ) (value : ε → ℕ) {ops : List (HeapOp ε)}
    (hfits : AllSteps HeapRun.step LastFits (HeapRun.new max value) ops) :
    let s := ops.foldl HeapRun.step (HeapRun.new max value)
    (poppedFrom s s.heap.count).Pairwise (fun a b => s.value a ≤ s.value b) ∧
      (poppedFrom s s.heap.count).Nodup ∧ ∀ e, e ∈ poppedFrom s s.heap.count ↔ e ∈ s.members := by
  intro s
  have hok : HeapOk s := AllSteps.foldl (fun s op hs hq => (hs.step_iff op).mpr hq) (HeapOk.new max value) hfits
  exact hok.popped

theorem heap_sorts_three :
    let s := [.push 1 30, .push 2 10, .push 3 20].foldl HeapRun.step (HeapRun.new 8 fun _ : ℕ => 0)
    (poppedFrom s s.heap.count).Pairwise (fun a b => s.value a ≤ s.value b) ∧
      (poppedFrom s s.heap.count).Nodup ∧ ∀ e, e ∈ poppedFrom s s.heap.count ↔ e ∈ s.members :=
  heap_sorts 8 (fun _ => 0) ⟨trivial, trivial, trivial, trivial⟩

end FStack.Analysis
