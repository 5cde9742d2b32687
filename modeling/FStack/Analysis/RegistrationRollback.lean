import FStack.Analysis.KqueueSlots

/-!
# The roll-back of a registration

An object that could be registered is taken out again with all of its events and with no object left to notify,
whatever there was before; and where a change fails after a filter has been deleted, the filter stays deleted.
`kqueueAdd_restored_iff` says when the slots of all descriptors are as they were.
-/

set_option autoImplicit false

namespace FStack.Analysis

open FStack.Model FStack.Prelude FStack.Model.KqueueProxy

/-! ## Registering and deregistering at one slot -/

/-- A reference more and then one less: the counter is as it was. -/
def CountsBack (ref : BitVec 32) : Prop := ref.toNat < 2 ^ 31 - 1

/-- The counters of the directions that an object wants. -/
def RefsBack (slot : KqSlot) (events : KqEvents) : Prop :=
  (.read ∈ events → CountsBack slot.ref.rd_ref) ∧ (.write ∈ events → CountsBack slot.ref.wr_ref)

/-- No change fails when the filters of the directions that are listened to are deleted and those of an object added. -/
structure RegistersAll (env : KqEnv) (slot : KqSlot) (events : KqEvents) : Prop where
  filters : slot.ref.events ⊆ slot.filters
  del : ∀ dir ∈ slot.ref.events, (env (delChange dir)).fget = none
  add : ∀ dir ∈ events, (env (addChange dir)).fget = none ∧
    (dir ∈ slot.filters ∧ dir ∉ slot.ref.events ∨ (env (addChange dir)).attach dir = none)

/-- An object can be registered: no other is notified, and it wants only what is listened to, or no change fails. -/
def Takes (env : KqEnv) (obj : ℕ) (slot : KqSlot) (events : KqEvents) : Prop :=
  (slot.obj = none ∨ slot.obj = some obj) ∧ (events ⊆ slot.ref.events ∨ RegistersAll env slot events)

/-- The object was not notified before, and it wants nothing, or there are no filters of its directions and the record
listens to nothing. -/
structure UndoneRight (slot : KqSlot) (events : KqEvents) : Prop where
  obj : slot.obj = none
  refs : RefsBack slot events
  events : events = ∅ ∨ slot.ref.events = ∅ ∧ Disjoint slot.filters events

/-- A change fails and leaves the filters as they are: it is the first one, or it is the one that adds the filter for
reading after the filter for writing was added, which was there before. -/
def FailsSafely (env : KqEnv) (slot : KqSlot) (events : KqEvents) : Prop :=
  (∃ first ∈ (rewrites slot.ref.events events).head?, changeFails env slot.filters first = true) ∨
    events = Finset.univ ∧
      (slot.ref.events = {.write} ∧ changeFails env (slot.filters.erase .write) (addChange .write) = false ∨
        slot.ref.events = ∅ ∧ .write ∈ slot.filters)

section Slot

variable {slot : KqSlot} {filters events old : KqEvents} {env : KqEnv} {obj : ℕ}

theorem dropRef_add_one (ref : BitVec 32) : KqFdRef.dropRef (ref + 1) = ref ↔ CountsBack ref := by
  have hadd : (ref + 1).toNat = (ref.toNat + 1) % 2 ^ 32 := BitVec.toNat_add ref 1
  have hlt := ref.isLt
  have hslt : (0#32).slt (ref + 1) = true ↔ 0 < (ref + 1).toNat ∧ (ref + 1).toNat < 2 ^ 31 := by
    rw [BitVec.slt_iff_toInt_lt, BitVec.toInt_zero, BitVec.toInt_eq_toNat_cond]
    split <;> omega
  unfold KqFdRef.dropRef CountsBack
  rw [BitVec.add_sub_cancel]
  by_cases hpos : (0#32).slt (ref + 1) = true
  · rw [if_pos hpos]
    have hrange := hslt.mp hpos
    exact iff_of_true rfl (by omega)
  · rw [if_neg hpos]
    have hrange := mt hslt.mpr hpos
    refine iff_of_false ?_ (by omega)
    intro hzero
    rw [← hzero] at hrange
    exact hrange (by decide)

/-- The record after an object has been attached and detached, with any events. -/
theorem detach_attach (slot : KqSlot) (events listen : KqEvents) :
    { (slot.ref.attachEvents events).detachEvents events with events := listen } = slot.ref ↔
      RefsBack slot events ∧ listen = slot.ref.events := by
  obtain ⟨⟨wr_ref, rd_ref, old⟩, filters, obj⟩ := slot
  simp only [KqFdRef.attachEvents, KqFdRef.detachEvents, RefsBack, KqFdRef.mk.injEq, ← dropRef_add_one]
  rw [← and_assoc, and_comm (b := _ = rd_ref)]
  refine and_congr_left fun _ => and_congr ?_ ?_
  · by_cases h : EvFilter.read ∈ events <;> simp [h]
  · by_cases h : EvFilter.write ∈ events <;> simp [h]

theorem makeChanges_append (as bs : List KqChange) (filters : KqEvents) :
    makeChanges env (as ++ bs) filters =
      if (makeChanges env as filters).2 then makeChanges env bs (makeChanges env as filters).1
      else makeChanges env as filters := by
  induction as generalizing filters with
  | nil => rfl
  | cons ch as ih =>
    rw [List.cons_append, makeChanges, makeChanges]
    split
    · rfl
    · exact ih _

theorem makeChanges_del (dir : EvFilter) (rest : List KqChange) (filters : KqEvents) :
    makeChanges env (delChange dir :: rest) filters =
      if changeFails env filters (delChange dir) then (filters, false)
      else makeChanges env rest (filters.erase dir) := rfl

theorem makeChanges_add (dir : EvFilter) (rest : List KqChange) (filters : KqEvents) :
    makeChanges env (addChange dir :: rest) filters =
      if changeFails env filters (addChange dir) then (filters, false)
      else makeChanges env rest (insert dir filters) := rfl

theorem changeFails_del {dir : EvFilter} :
    changeFails env filters (delChange dir) = false ↔ dir ∈ filters ∧ (env (delChange dir)).fget = none := by
  unfold changeFails
  by_cases h : dir ∈ filters <;> simp [delChange, h]

theorem changeFails_add {dir : EvFilter} :
    changeFails env filters (addChange dir) = false ↔
      (env (addChange dir)).fget = none ∧ (dir ∈ filters ∨ (env (addChange dir)).attach dir = none) := by
  unfold changeFails
  by_cases h : dir ∈ filters <;> simp [addChange, h]

/-- Deletions. -/
theorem makeChanges_dels {dirs : List EvFilter} (hnodup : dirs.Nodup) (filters : KqEvents) :
    ((makeChanges env (dirs.map delChange) filters).2 = true ↔
        ∀ dir ∈ dirs, dir ∈ filters ∧ (env (delChange dir)).fget = none) ∧
      ((makeChanges env (dirs.map delChange) filters).2 = true →
        (makeChanges env (dirs.map delChange) filters).1 = filters \ dirs.toFinset) := by
  induction dirs generalizing filters with
  | nil => simp [makeChanges]
  | cons dir dirs ih =>
    rw [List.nodup_cons] at hnodup
    obtain ⟨hiff, hset⟩ := ih hnodup.2 (filters.erase dir)
    rw [List.map_cons, makeChanges_del, List.forall_mem_cons]
    cases hfails : changeFails env filters (delChange dir) with
    | true =>
      rw [if_pos rfl]
      refine ⟨iff_of_false Bool.false_ne_true fun h => ?_, fun h => absurd h Bool.false_ne_true⟩
      rw [changeFails_del.mpr h.1] at hfails
      exact absurd hfails Bool.false_ne_true
    | false =>
      rw [if_neg Bool.false_ne_true]
      refine ⟨hiff.trans ?_, fun h => ?_⟩
      · rw [and_iff_right (changeFails_del.mp hfails)]
        refine forall₂_congr fun d hd => ?_
        have hne : d ≠ dir := fun heq => hnodup.1 (heq ▸ hd)
        exact and_congr_left fun _ => by rw [Finset.mem_erase, and_iff_right hne]
      · refine (hset h).trans ?_
        rw [List.toFinset_cons, Finset.erase_sdiff_comm, Finset.sdiff_insert]

/-- Additions. -/
theorem makeChanges_adds {dirs : List EvFilter} (hnodup : dirs.Nodup) (filters : KqEvents) :
    ((makeChanges env (dirs.map addChange) filters).2 = true ↔
        ∀ dir ∈ dirs, (env (addChange dir)).fget = none ∧ (dir ∈ filters ∨ (env (addChange dir)).attach dir = none)) ∧
      ((makeChanges env (dirs.map addChange) filters).2 = true →
        (makeChanges env (dirs.map addChange) filters).1 = filters ∪ dirs.toFinset) := by
  induction dirs generalizing filters with
  | nil => simp [makeChanges]
  | cons dir dirs ih =>
    rw [List.nodup_cons] at hnodup
    obtain ⟨hiff, hset⟩ := ih hnodup.2 (insert dir filters)
    rw [List.map_cons, makeChanges_add, List.forall_mem_cons]
    cases hfails : changeFails env filters (addChange dir) with
    | true =>
      rw [if_pos rfl]
      refine ⟨iff_of_false Bool.false_ne_true fun h => ?_, fun h => absurd h Bool.false_ne_true⟩
      rw [changeFails_add.mpr h.1] at hfails
      exact absurd hfails Bool.false_ne_true
    | false =>
      rw [if_neg Bool.false_ne_true]
      refine ⟨hiff.trans ?_, fun h => ?_⟩
      · rw [and_iff_right (changeFails_add.mp hfails)]
        refine forall₂_congr fun d hd => ?_
        have hne : d ≠ dir := fun heq => hnodup.1 (heq ▸ hd)
        exact and_congr_right fun _ => by rw [Finset.mem_insert, or_iff_right hne]
      · refine (hset h).trans ?_
        rw [List.toFinset_cons, Finset.insert_union, Finset.union_insert]

/-- The filters of the old directions are deleted and those of the new ones added. -/
theorem makeChanges_rewrites (old events filters : KqEvents) :
    ((makeChanges env (rewrites old events) filters).2 = true ↔
        (∀ dir ∈ old, dir ∈ filters ∧ (env (delChange dir)).fget = none) ∧
          ∀ dir ∈ events, (env (addChange dir)).fget = none ∧
            (dir ∈ filters \ old ∨ (env (addChange dir)).attach dir = none)) ∧
      ((makeChanges env (rewrites old events) filters).2 = true →
        (makeChanges env (rewrites old events) filters).1 = filters \ old ∪ events) := by
  have hmem : ∀ {E : KqEvents} {P : EvFilter → Prop}, (∀ dir ∈ [EvFilter.write, .read].filter (· ∈ E), P dir) ↔
      ∀ dir ∈ E, P dir := by
    intro E P
    simp only [← List.mem_toFinset, toFinset_filter_dirs]
  obtain ⟨hdel, hrest⟩ := @makeChanges_dels env _ (nodup_filter_dirs old) filters
  rw [hmem] at hdel
  rw [toFinset_filter_dirs] at hrest
  rw [rewrites, makeChanges_append]
  cases hok : (makeChanges env (([EvFilter.write, .read].filter (· ∈ old)).map delChange) filters).2 with
  | false =>
    rw [if_neg Bool.false_ne_true, hok]
    rw [hok] at hdel
    exact ⟨iff_of_false Bool.false_ne_true fun h => Bool.false_ne_true (hdel.mpr h.1),
      fun h => absurd h Bool.false_ne_true⟩
  | true =>
    obtain ⟨hadd, hafter⟩ := @makeChanges_adds env _ (nodup_filter_dirs events) (filters \ old)
    rw [hmem] at hadd
    rw [toFinset_filter_dirs] at hafter
    rw [if_pos rfl, hrest hok]
    exact ⟨hadd.trans (and_iff_right (hdel.mp hok)).symm, hafter⟩

theorem registers_iff : (makeChanges env (rewrites slot.ref.events events) slot.filters).2 = true ↔
    RegistersAll env slot events := by
  rw [(makeChanges_rewrites slot.ref.events events slot.filters).1]
  simp only [Finset.mem_sdiff]
  constructor
  · rintro ⟨hdel, hadd⟩
    exact ⟨fun dir hdir => (hdel dir hdir).1, fun dir hdir => (hdel dir hdir).2, hadd⟩
  · intro h
    exact ⟨fun dir hdir => ⟨h.filters hdir, h.del dir hdir⟩, h.add⟩

/-- There is nothing to change for an object if what it wants is listened to. -/
theorem union_eq_iff : slot.ref.events = slot.ref.events ∪ events ↔ events ⊆ slot.ref.events := by
  rw [eq_comm, Finset.union_eq_left]

/-- A registration where the object that is notified allows it. -/
theorem add_of_free (hfree : slot.obj = none ∨ slot.obj = some obj) :
    slot.add true env obj events =
      if (slot.ctrlAdd env events).2 then ({ (slot.ctrlAdd env events).1 with obj := some obj }, true)
      else ((slot.ctrlAdd env events).1, false) := by
  unfold KqSlot.add
  rw [if_neg (by decide : ¬ true = false), if_neg]
  rintro ⟨hne, hother⟩
  exact hfree.elim hne hother

/-- An object is registered if and only if it can be. -/
theorem add_ok_iff : (slot.add true env obj events).2 = true ↔ Takes env obj slot events := by
  unfold Takes
  by_cases hfree : slot.obj = none ∨ slot.obj = some obj
  · rw [add_of_free hfree, and_iff_right hfree, ← union_eq_iff, ← registers_iff]
    unfold KqSlot.ctrlAdd
    dsimp only
    by_cases hsub : slot.ref.events = slot.ref.events ∪ events
    · rw [if_pos hsub]
      exact iff_of_true rfl (Or.inl hsub)
    · rw [if_neg hsub, or_iff_right hsub]
      cases (makeChanges env (rewrites slot.ref.events events) slot.filters).2 <;> rfl
  · refine iff_of_false ?_ fun h => hfree h.1
    have hadd : slot.add true env obj events = (slot, false) := if_pos (not_or.mp hfree)
    rw [hadd]
    exact Bool.false_ne_true

/-- A slot by its parts. -/
theorem slot_eq_iff {ref : KqFdRef} {filters : KqEvents} {obj : Option ℕ} :
    (⟨ref, filters, obj⟩ : KqSlot) = slot ↔ ref = slot.ref ∧ filters = slot.filters ∧ obj = slot.obj := by
  cases slot
  exact KqSlot.mk.injEq _ _ _ _ _ _ ▸ Iff.rfl

/-- What a deregistration that succeeds leaves. -/
theorem del_cases (hown : slot.obj = some obj) (hok : (slot.del true env obj events).2 = true) :
    (slot.ref.events = slot.ref.events \ events ∧
      (slot.del true env obj events).1 = ⟨slot.ref.detachEvents events, slot.filters, none⟩) ∨
    (slot.ref.events ≠ slot.ref.events \ events ∧ slot.ref.events ⊆ slot.filters ∧
      (slot.del true env obj events).1 =
        ⟨{ slot.ref.detachEvents events with events := slot.ref.events \ events },
          slot.filters \ slot.ref.events ∪ slot.ref.events \ events, none⟩) := by
  have hdel : slot.del true env obj events =
      if (slot.ctrlDel env events).2 then ({ (slot.ctrlDel env events).1 with obj := none }, true)
      else ((slot.ctrlDel env events).1, false) := by
    unfold KqSlot.del
    rw [if_neg (by decide : ¬ true = false), if_neg (not_not.mpr hown)]
  rw [hdel] at hok ⊢
  by_cases hsame : slot.ref.events = slot.ref.events \ events
  · have hctrl : slot.ctrlDel env events = ({ slot with ref := slot.ref.detachEvents events }, true) := if_pos hsame
    rw [hctrl]
    exact Or.inl ⟨hsame, rfl⟩
  · obtain ⟨hiff, hafter⟩ := @makeChanges_rewrites env slot.ref.events (slot.ref.events \ events) slot.filters
    have hctrl : slot.ctrlDel env events =
        if (makeChanges env (rewrites slot.ref.events (slot.ref.events \ events)) slot.filters).2 then
          (⟨{ slot.ref.detachEvents events with events := slot.ref.events \ events },
            (makeChanges env (rewrites slot.ref.events (slot.ref.events \ events)) slot.filters).1, slot.obj⟩, true)
        else (⟨slot.ref.detachEvents events,
          (makeChanges env (rewrites slot.ref.events (slot.ref.events \ events)) slot.filters).1, slot.obj⟩, false) :=
      if_neg hsame
    rw [hctrl] at hok ⊢
    cases hchanges : (makeChanges env (rewrites slot.ref.events (slot.ref.events \ events)) slot.filters).2 with
    | false =>
      rw [hchanges] at hok
      exact absurd hok Bool.false_ne_true
    | true =>
      rw [if_pos rfl, if_pos rfl, hafter hchanges]
      exact Or.inr ⟨hsame, fun dir hdir => ((hiff.mp hchanges).1 dir hdir).1, rfl⟩

variable {undoEnv : KqEnv}

/-- An object that wanted only what is listened to is registered and taken out again. -/
theorem undone_of_subset (hfree : slot.obj = none ∨ slot.obj = some obj) (hsub : events ⊆ slot.ref.events)
    (hundo : ((slot.add true env obj events).1.del true undoEnv obj events).2 = true) :
    ((slot.add true env obj events).1.del true undoEnv obj events).1 = slot ↔ UndoneRight slot events := by
  have hadd : (slot.add true env obj events).1 = ⟨slot.ref.attachEvents events, slot.filters, some obj⟩ := by
    rw [add_of_free hfree, KqSlot.ctrlAdd, if_pos (union_eq_iff.mpr hsub)]
    rfl
  rw [hadd] at hundo ⊢
  rcases del_cases rfl hundo with ⟨hsame, heq⟩ | ⟨hne, -, heq⟩
  · have hempty : events = ∅ := by
      have hdisjoint : Disjoint slot.ref.events events := Finset.sdiff_eq_self_iff_disjoint.mp hsame.symm
      exact disjoint_self.mp (hdisjoint.mono_left hsub)
    have hrecord := detach_attach slot events slot.ref.events
    rw [heq, slot_eq_iff]
    constructor
    · rintro ⟨href, -, hobj⟩
      exact ⟨hobj.symm, (hrecord.mp href).1, Or.inl hempty⟩
    · intro h
      exact ⟨hrecord.mpr ⟨h.refs, rfl⟩, rfl, h.obj.symm⟩
  · rw [heq, slot_eq_iff]
    constructor
    · rintro ⟨href, -, -⟩
      exact absurd (congrArg KqFdRef.events href).symm hne
    · intro h
      refine absurd ?_ hne
      show slot.ref.events = slot.ref.events \ events
      rcases h.events with hempty | ⟨hold, -⟩
      · rw [hempty, Finset.sdiff_empty]
      · rw [hold, Finset.empty_sdiff]

/-- An object for which changes were made is registered and taken out again. -/
theorem undone_of_registers (hfree : slot.obj = none ∨ slot.obj = some obj) (hsub : ¬ events ⊆ slot.ref.events)
    (hregisters : RegistersAll env slot events)
    (hundo : ((slot.add true env obj events).1.del true undoEnv obj events).2 = true) :
    ((slot.add true env obj events).1.del true undoEnv obj events).1 = slot ↔ UndoneRight slot events := by
  have hok := registers_iff.mpr hregisters
  have hadd : (slot.add true env obj events).1 = ⟨{ slot.ref.attachEvents events with
      events := slot.ref.events ∪ events }, slot.filters \ slot.ref.events ∪ events, some obj⟩ := by
    have hctrl : slot.ctrlAdd env events = (⟨{ slot.ref.attachEvents events with
        events := slot.ref.events ∪ events }, slot.filters \ slot.ref.events ∪ events, slot.obj⟩, true) := by
      unfold KqSlot.ctrlAdd
      dsimp only
      rw [if_neg (mt union_eq_iff.mp hsub), if_pos hok,
        (makeChanges_rewrites slot.ref.events events slot.filters).2 hok]
    rw [add_of_free hfree, hctrl]
    rfl
  rw [hadd] at hundo ⊢
  rcases del_cases rfl hundo with ⟨hsame, -⟩ | ⟨-, hfilters, heq⟩
  · have hdisjoint : Disjoint (slot.ref.events ∪ events) events := Finset.sdiff_eq_self_iff_disjoint.mp hsame.symm
    have hempty : events = ∅ := disjoint_self.mp (hdisjoint.mono_left Finset.subset_union_right)
    exact absurd (hempty ▸ Finset.empty_subset _) hsub
  · -- All that was listened to is wanted, or else its filter could not be deleted again.
    have hwanted : slot.ref.events ⊆ events := by
      intro dir hdir
      have hmem : dir ∈ slot.filters \ slot.ref.events ∪ events := hfilters (Finset.mem_union_left _ hdir)
      rcases Finset.mem_union.mp hmem with hmem | hmem
      · exact absurd hdir (Finset.mem_sdiff.mp hmem).2
      · exact hmem
    have hunion : slot.ref.events ∪ events = events := Finset.union_eq_right.mpr hwanted
    have hrecord := detach_attach slot events ∅
    rw [heq, slot_eq_iff]
    dsimp only
    rw [hunion, Finset.sdiff_self, Finset.union_empty]
    constructor
    · rintro ⟨href, hkept, hobj⟩
      obtain ⟨hrefs, hold⟩ := hrecord.mp href
      refine ⟨hobj.symm, hrefs, Or.inr ⟨hold.symm, ?_⟩⟩
      rw [← hkept]
      exact Finset.sdiff_disjoint
    · intro h
      rcases h.events with hempty | ⟨hold, hdisjoint⟩
      · exact absurd (hempty ▸ Finset.empty_subset _) hsub
      · refine ⟨hrecord.mpr ⟨h.refs, hold.symm⟩, ?_, h.obj.symm⟩
        rw [hold, Finset.sdiff_empty, Finset.union_sdiff_cancel_right hdisjoint]

/-- An object that is registered and taken out again leaves its slot as it was if and only if it has found it so. -/
theorem undone_iff (htakes : Takes env obj slot events)
    (hundo : ((slot.add true env obj events).1.del true undoEnv obj events).2 = true) :
    ((slot.add true env obj events).1.del true undoEnv obj events).1 = slot ↔ UndoneRight slot events := by
  by_cases hsub : events ⊆ slot.ref.events
  · exact undone_of_subset htakes.1 hsub hundo
  · exact undone_of_registers htakes.1 hsub (htakes.2.resolve_left hsub) hundo

/-- The sets of directions. -/
theorem kqEvents_cases (events : KqEvents) :
    events = ∅ ∨ events = {.read} ∨ events = {.write} ∨ events = Finset.univ := by
  by_cases hread : EvFilter.read ∈ events <;> by_cases hwrite : EvFilter.write ∈ events
  · right; right; right
    ext dir
    cases dir <;> simp [hread, hwrite]
  · right; left
    ext dir
    cases dir <;> simp [hread, hwrite]
  · right; right; left
    ext dir
    cases dir <;> simp [hread, hwrite]
  · left
    ext dir
    cases dir <;> simp [hread, hwrite]

/-- One change alone does not fail after it has been made. -/
theorem makeChanges_single {ch : KqChange} (hok : changeFails env filters ch = false) :
    (makeChanges env [ch] filters).2 ≠ false := by
  rw [makeChanges, hok]
  exact Bool.noConfusion

/-- The filters after a change that is made and one that fails. -/
theorem makeChanges_second {second : KqChange} (hfail : (makeChanges env [second] filters).2 = false) :
    (makeChanges env [second] filters).1 = filters := by
  rw [makeChanges] at hfail ⊢
  split
  · rfl
  · next hok =>
    rw [if_neg hok] at hfail
    exact absurd hfail Bool.noConfusion

/-- Where the first change is made and another fails, the filters are as they were only if a filter for writing
was there and is added first. -/
theorem changes_kept_of_later {first : KqChange} {rest : List KqChange} (hsub : ¬ events ⊆ old)
    (hchanges : rewrites old events = first :: rest) (hfirst : changeFails env filters first = false)
    (hfail : (makeChanges env (rewrites old events) filters).2 = false) :
    (makeChanges env (rewrites old events) filters).1 = filters ↔
      events = Finset.univ ∧
        (old = {.write} ∧ changeFails env (filters.erase .write) (addChange .write) = false ∨
          old = ∅ ∧ .write ∈ filters) := by
  rcases kqEvents_cases old with rfl | rfl | rfl | rfl
  · rcases kqEvents_cases events with rfl | rfl | rfl | rfl
    · exact absurd (Finset.empty_subset _) hsub
    · have hlist : rewrites ∅ {.read} = [addChange .read] := by decide
      rw [hlist] at hchanges hfail
      obtain ⟨rfl, -⟩ := List.cons.inj hchanges
      exact absurd hfail (makeChanges_single hfirst)
    · have hlist : rewrites ∅ {.write} = [addChange .write] := by decide
      rw [hlist] at hchanges hfail
      obtain ⟨rfl, -⟩ := List.cons.inj hchanges
      exact absurd hfail (makeChanges_single hfirst)
    · have hlist : rewrites ∅ Finset.univ = [addChange .write, addChange .read] := by decide
      rw [hlist] at hchanges hfail ⊢
      obtain ⟨rfl, -⟩ := List.cons.inj hchanges
      rw [makeChanges_add, hfirst, if_neg Bool.false_ne_true] at hfail ⊢
      rw [makeChanges_second hfail, Finset.insert_eq_self]
      simp
  · rcases kqEvents_cases events with rfl | rfl | rfl | rfl
    · exact absurd (Finset.empty_subset _) hsub
    · exact absurd (Finset.Subset.refl _) hsub
    · have hlist : rewrites {.read} {.write} = [delChange .read, addChange .write] := by decide
      rw [hlist] at hchanges hfail ⊢
      obtain ⟨rfl, -⟩ := List.cons.inj hchanges
      rw [makeChanges_del, hfirst, if_neg Bool.false_ne_true] at hfail ⊢
      rw [makeChanges_second hfail, Finset.erase_eq_self]
      refine iff_of_false (not_not.mpr (changeFails_del.mp hfirst).1) ?_
      rintro ⟨huniv, -⟩
      exact absurd huniv (by decide)
    · have hlist : rewrites {.read} Finset.univ = [delChange .read, addChange .write, addChange .read] := by decide
      rw [hlist] at hchanges hfail ⊢
      obtain ⟨rfl, -⟩ := List.cons.inj hchanges
      have hmem := (changeFails_del.mp hfirst).1
      rw [makeChanges_del, hfirst, if_neg Bool.false_ne_true, makeChanges_add] at hfail ⊢
      refine iff_of_false ?_ ?_
      · intro hsame
        rw [← hsame] at hmem
        revert hmem hfail
        split
        · intro _ hmem
          exact Finset.notMem_erase _ _ hmem
        · intro hfail hmem
          rw [makeChanges_second hfail] at hmem
          simp at hmem
      · rintro ⟨-, ⟨hold, -⟩ | ⟨hold, -⟩⟩
        · exact absurd hold (by decide)
        · exact absurd hold (by decide)
  · rcases kqEvents_cases events with rfl | rfl | rfl | rfl
    · exact absurd (Finset.empty_subset _) hsub
    · have hlist : rewrites {.write} {.read} = [delChange .write, addChange .read] := by decide
      rw [hlist] at hchanges hfail ⊢
      obtain ⟨rfl, -⟩ := List.cons.inj hchanges
      rw [makeChanges_del, hfirst, if_neg Bool.false_ne_true] at hfail ⊢
      rw [makeChanges_second hfail, Finset.erase_eq_self]
      refine iff_of_false (not_not.mpr (changeFails_del.mp hfirst).1) ?_
      rintro ⟨huniv, -⟩
      exact absurd huniv (by decide)
    · exact absurd (Finset.Subset.refl _) hsub
    · have hlist : rewrites {.write} Finset.univ = [delChange .write, addChange .write, addChange .read] := by decide
      rw [hlist] at hchanges hfail ⊢
      obtain ⟨rfl, -⟩ := List.cons.inj hchanges
      have hmem := (changeFails_del.mp hfirst).1
      rw [makeChanges_del, hfirst, if_neg Bool.false_ne_true, makeChanges_add] at hfail ⊢
      cases hsecond : changeFails env (filters.erase .write) (addChange .write) with
      | true =>
        rw [if_pos rfl, Finset.erase_eq_self]
        refine iff_of_false (not_not.mpr hmem) ?_
        rintro ⟨-, ⟨-, hadded⟩ | ⟨hold, -⟩⟩
        · exact absurd hadded Bool.noConfusion
        · exact absurd hold (by decide)
      | false =>
        rw [hsecond, if_neg Bool.false_ne_true] at hfail
        rw [if_neg Bool.false_ne_true, makeChanges_second hfail, Finset.insert_erase hmem]
        exact iff_of_true rfl ⟨rfl, Or.inl ⟨rfl, rfl⟩⟩
  · exact absurd (Finset.subset_univ _) hsub

/-- The changes that were made before one that fails leave the filters as they were if and only if it fails safely. -/
theorem changes_kept_iff (hsub : ¬ events ⊆ slot.ref.events)
    (hfail : (makeChanges env (rewrites slot.ref.events events) slot.filters).2 = false) :
    (makeChanges env (rewrites slot.ref.events events) slot.filters).1 = slot.filters ↔ FailsSafely env slot events := by
  unfold FailsSafely
  cases hchanges : rewrites slot.ref.events events with
  | nil =>
    rw [hchanges] at hfail
    exact absurd hfail Bool.noConfusion
  | cons first rest =>
    rw [← hchanges]
    have hhead : (∃ ch ∈ (rewrites slot.ref.events events).head?, changeFails env slot.filters ch = true) ↔
        changeFails env slot.filters first = true := by
      rw [hchanges]
      simp
    rw [hhead]
    cases hfirst : changeFails env slot.filters first with
    | true =>
      refine iff_of_true ?_ (Or.inl rfl)
      rw [hchanges, makeChanges, if_pos hfirst]
    | false =>
      rw [or_iff_right Bool.noConfusion]
      exact changes_kept_of_later hsub hchanges hfirst hfail

/-- An object that cannot be registered leaves its slot as it was if and only if another object is notified, or the
counters come back and the change that fails does so safely. -/
theorem left_iff (hnot : ¬ Takes env obj slot events) :
    (slot.add true env obj events).1 = slot ↔
      (slot.obj ≠ none ∧ slot.obj ≠ some obj) ∨ RefsBack slot events ∧ FailsSafely env slot events := by
  by_cases hfree : slot.obj = none ∨ slot.obj = some obj
  · obtain ⟨hsub, hregisters⟩ := not_or.mp fun h => hnot ⟨hfree, h⟩
    have hfail : (makeChanges env (rewrites slot.ref.events events) slot.filters).2 = false :=
      Bool.not_eq_true _ ▸ mt registers_iff.mp hregisters
    have hctrl : slot.ctrlAdd env events = (⟨(slot.ref.attachEvents events).detachEvents events,
        (makeChanges env (rewrites slot.ref.events events) slot.filters).1, slot.obj⟩, false) := by
      unfold KqSlot.ctrlAdd
      dsimp only
      rw [if_neg (mt union_eq_iff.mp hsub), hfail]
      rfl
    have hrecord := detach_attach slot events slot.ref.events
    have hother : ¬ (slot.obj ≠ none ∧ slot.obj ≠ some obj) := fun h => hfree.elim h.1 h.2
    rw [add_of_free hfree, hctrl, or_iff_right hother, ← changes_kept_iff hsub hfail]
    refine slot_eq_iff.trans (and_congr (hrecord.trans (and_iff_left rfl)) (and_iff_left rfl))
  · have hadd : slot.add true env obj events = (slot, false) := if_pos (not_or.mp hfree)
    rw [hadd]
    exact iff_of_true rfl (Or.inl (not_or.mp hfree))

end Slot

/-! ## Lists of objects -/

/-- For every descriptor, the filters, the events of the record, the reference counts and the object are the same. -/
def Restored (s s' : NotifyProxy) : Prop :=
  ∀ fd, registered s'.proxy.kq fd = registered s.proxy.kq fd ∧ s'.proxy.kqrefs fd = s.proxy.kqrefs fd ∧
    s'.kqobj fd = s.kqobj fd

/-- If an object cannot be registered, the calls that take those before it out again all succeed. -/
def RollBackSucceeds (s : NotifyProxy) (env undoEnv : ℕ → KqEnv) (objs : List ℕ) : Prop :=
  ∀ error, (NotifyProxy.addLoop env objs s).2 = some error →
    (NotifyProxy.rollBack undoEnv error objs (NotifyProxy.addLoop env objs s).1).2 = true

/-- An object is registered after those in `done`: none of them is on its descriptor, and the slot takes it. -/
def ObjTakes (s : NotifyProxy) (env : ℕ → KqEnv) (done : List ℕ) (obj : ℕ) : Prop :=
  s.fd obj ∉ done.map s.fd ∧ objInRange s obj = true ∧ Takes (env obj) obj (kqSlots s (s.fd obj)) (s.events obj)

/-- An object that was registered is taken out again without a trace. -/
def ObjUndone (s : NotifyProxy) (obj : ℕ) : Prop := UndoneRight (kqSlots s (s.fd obj)) (s.events obj)

/-- An object that is not registered has left no trace: it is on the descriptor of one before it, there is no record for
its descriptor, another object is notified, or the counters come back and the change that fails does so safely. -/
def ObjLeft (s : NotifyProxy) (env : ℕ → KqEnv) (done : List ℕ) (obj : ℕ) : Prop :=
  s.fd obj ∈ done.map s.fd ∨ objInRange s obj = false ∨ (s.kqobj (s.fd obj) ≠ none ∧ s.kqobj (s.fd obj) ≠ some obj) ∨
    RefsBack (kqSlots s (s.fd obj)) (s.events obj) ∧ FailsSafely (env obj) (kqSlots s (s.fd obj)) (s.events obj)

section Lists

variable {s : NotifyProxy} {env undoEnv : ℕ → KqEnv} {objs : List ℕ}

theorem restored_iff {s' : NotifyProxy} : Restored s s' ↔ kqSlots s' = kqSlots s := by
  constructor
  · intro h
    funext fd
    exact slot_eq_iff.mpr ⟨(h fd).2.1, (h fd).1, (h fd).2.2⟩
  · intro h fd
    obtain ⟨href, hfilters, hobj⟩ := slot_eq_iff.mp (congrFun h fd)
    exact ⟨hfilters, href, hobj⟩

/-- An object that has been registered is the one that is notified, and no other can be registered there. -/
theorem addSlot_excludes (s : NotifyProxy) (env : ℕ → KqEnv) : Excludes (addSlot s env) := by
  intro i j slot hne hok
  have hobj : (addSlot s env i slot).1.obj = some i := by
    unfold addSlot KqSlot.add at hok ⊢
    split at hok
    · exact absurd hok Bool.noConfusion
    split at hok
    · exact absurd hok Bool.noConfusion
    dsimp only at hok
    split at hok
    · next hrange hfree hctrl =>
      rw [if_neg hrange, if_neg hfree]
      dsimp only
      rw [if_pos hctrl]
    · exact absurd hok Bool.noConfusion
  generalize (addSlot s env i slot).1 = after at hobj
  unfold addSlot KqSlot.add
  split
  · rfl
  · rw [if_pos]
    rw [hobj]
    exact ⟨Option.some_ne_none i, fun heq => hne (Option.some.inj heq)⟩

theorem addSlot_ok_iff (slot : KqSlot) (obj : ℕ) :
    (addSlot s env obj slot).2 = true ↔ objInRange s obj = true ∧ Takes (env obj) obj slot (s.events obj) := by
  unfold addSlot
  cases hrange : objInRange s obj with
  | false => exact iff_of_false Bool.noConfusion fun h => Bool.noConfusion h.1
  | true => exact add_ok_iff.trans (and_iff_right rfl).symm

/-- What is left of an object that cannot be registered, at its slot. -/
theorem addSlot_left_iff {slot : KqSlot} {obj : ℕ} (hnot : (addSlot s env obj slot).2 ≠ true) :
    (addSlot s env obj slot).1 = slot ↔ objInRange s obj = false ∨ (slot.obj ≠ none ∧ slot.obj ≠ some obj) ∨
      RefsBack slot (s.events obj) ∧ FailsSafely (env obj) slot (s.events obj) := by
  rw [Ne, addSlot_ok_iff] at hnot
  unfold addSlot
  cases hrange : objInRange s obj with
  | false => exact iff_of_true rfl (Or.inl rfl)
  | true =>
    rw [or_iff_right Bool.noConfusion]
    exact left_iff fun h => hnot ⟨hrange, h⟩

/-- A list that cannot be registered leaves everything as it was, where the calls of the roll-back succeed, if and only if
each object that was registered before the failure is taken out without a trace and the one that fails leaves none. -/
theorem kqueueAdd_restored_iff (hnodup : objs.Nodup) (hundo : RollBackSucceeds s env undoEnv objs) :
    ((s.kqueueAdd env undoEnv objs).2 = false → Restored s (s.kqueueAdd env undoEnv objs).1) ↔
      StopsSafely (ObjTakes s env) (ObjUndone s) (ObjLeft s env) [] objs := by
  obtain ⟨hslots, hret, hobjs⟩ := slots_addLoop (SameObjs.refl s) env objs
  have hroll := fun error => slots_rollBack hobjs undoEnv error objs
  rw [hslots] at hroll
  have hadd : ((s.kqueueAdd env undoEnv objs).2 = false → Restored s (s.kqueueAdd env undoEnv objs).1) ↔
      ∀ error, (attempt s.fd (addSlot s env) objs (kqSlots s)).2 = some error →
        (revert s.fd (delSlot s undoEnv) error objs (attempt s.fd (addSlot s env) objs (kqSlots s)).1).1 = kqSlots s := by
    rw [← hret]
    unfold NotifyProxy.kqueueAdd
    rcases hloop : NotifyProxy.addLoop env objs s with ⟨s', _ | error⟩
    · exact iff_of_true (fun h => absurd h Bool.noConfusion) fun error h => absurd h (Option.some_ne_none error).symm
    · have herror := (hroll error).1
      rw [hloop] at herror
      dsimp only
      rw [restored_iff, herror]
      refine ⟨fun h error' heq => ?_, fun h _ => h error rfl⟩
      rw [← Option.some.inj heq]
      exact h rfl
  rw [hadd]
  refine revert_attempt_iff (addSlot_excludes s env) hnodup ?_ ?_ ?_ ?_
  · intro done obj
    exact and_congr_right fun _ => (addSlot_ok_iff _ obj).symm
  · intro obj hok hundone
    obtain ⟨hrange, htakes⟩ := (addSlot_ok_iff _ obj).mp hok
    unfold addSlot delSlot at hundone ⊢
    rw [hrange] at hundone ⊢
    exact undone_iff htakes hundone
  · intro done obj hnot
    by_cases hmem : s.fd obj ∈ done.map s.fd
    · exact iff_of_true (Or.inl hmem) (Or.inl hmem)
    · exact or_congr_right (addSlot_left_iff fun hok => hnot ⟨hmem, hok⟩)
  · intro error herror
    rw [← (hroll error).2]
    exact hundo error (hret.trans herror)

/-- Two objects for reading, the second of which has a descriptor without a record. -/
def twoReaders : NotifyProxy := ⟨initKqueue 0, fun _ => none, fun obj => if obj = 0 then 5 else 100000, fun _ => {.read}⟩

/-- The second object cannot be registered, and the first is taken out again without a trace. -/
theorem two_readers_restored : Restored twoReaders (twoReaders.kqueueAdd (fun _ _ => {}) (fun _ _ => {}) [0, 1]).1 := by
  have hloop : (NotifyProxy.addLoop (fun _ _ => {}) [0, 1] twoReaders).2 = some 1 := by decide
  have htakes : ObjTakes twoReaders (fun _ _ => {}) [] 0 := by
    refine ⟨List.not_mem_nil, by decide, Or.inl rfl, Or.inr ⟨Finset.empty_subset _, ?_, ?_⟩⟩
    · exact fun _ _ => rfl
    · exact fun _ _ => ⟨rfl, Or.inr rfl⟩
  have hcount : CountsBack 0 := by
    unfold CountsBack
    decide
  have hundone : ObjUndone twoReaders 0 := ⟨rfl, ⟨fun _ => hcount, fun _ => hcount⟩, Or.inr ⟨rfl, by decide⟩⟩
  refine (kqueueAdd_restored_iff (by decide) ?_).mpr (Or.inl ⟨htakes, Or.inr ⟨?_, ?_, ?_⟩⟩) (by decide)
  · intro error herror
    obtain rfl := Option.some.inj (hloop.symm.trans herror)
    decide
  · rintro ⟨-, hrange, -⟩
    exact absurd hrange (by decide)
  · intro obj hobj
    obtain rfl := List.mem_singleton.mp hobj
    exact hundone
  · exact Or.inr (Or.inl (by decide))

/-- The first object has been registered before: it is taken out with its filter, though it was there. -/
theorem registered_reader_lost :
    ¬ ∀ (s : NotifyProxy) (env undoEnv : ℕ → KqEnv) (objs : List ℕ), objs.Nodup → RollBackSucceeds s env undoEnv objs →
      (s.kqueueAdd env undoEnv objs).2 = false → Restored s (s.kqueueAdd env undoEnv objs).1 := by
  intro h
  let s := (twoReaders.kqueueAddObj (fun _ => {}) 0).1
  have hloop : (NotifyProxy.addLoop (fun _ _ => {}) [0, 1] s).2 = some 1 := by decide
  have hundo : RollBackSucceeds s (fun _ _ => {}) (fun _ _ => {}) [0, 1] := by
    intro error herror
    obtain rfl := Option.some.inj (hloop.symm.trans herror)
    decide
  have hfilters := (h s (fun _ _ => {}) (fun _ _ => {}) [0, 1] (by decide) hundo (by decide) 5).1
  exact absurd hfilters (by decide)

end Lists

end FStack.Analysis
