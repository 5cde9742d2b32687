import FStack.Model.KqueueProxy

/-!
# The filters in the kqueue and the record of what is listened to

`KqueueCtrlAdd` takes all filters of a descriptor away and adds those of its own `events` again, but
notes that it listens to the old directions too.  A call in which a change fails after others were
made leaves these as they are.

Both are what can part the filters from the record: `call_mirrored` takes a call in which neither
happens, and `kqueueCtrl_mirrors` whole runs of such calls.  That it has to be so for the first is the
other half: a call of `KqueueCtrlAdd` that meets no failure and does not name a direction that is
listened to returns with the filter of this direction gone.
-/

set_option autoImplicit false

namespace FStack.Analysis

open FStack.Model FStack.Prelude FStack.Model.KqueueProxy

variable {s : KqueueProxy} {kq : KnoteTable} {fd : BitVec 32} {env : KqEnv}
variable {dir : EvFilter} {c : KqCall}

/-- The directions that have a knote in the kqueue. -/
def registered (kq : KnoteTable) (fd : BitVec 32) : KqEvents :=
  Finset.univ.filter fun dir => (kq (fd.signExtend 64) dir).isSome

theorem mem_registered :
    dir ∈ registered kq fd ↔ (kq (fd.signExtend 64) dir).isSome = true := by
  simp [registered]

/-- The filters of all descriptors are those of their records. -/
def Mirrored (s : KqueueProxy) : Prop :=
  ∀ fd, registered s.kq fd = (s.kqrefs fd).events

/-- A change fails, whatever the kqueue holds of its descriptor (a deletion), or unless there is a knote
(an addition). -/
def refused (env : KqEnv) (ch : KqChange) : Bool :=
  (env ch).fget.isSome || (ch.1.EV_ADD && ((env ch).attach ch.2).isSome)

/-- The directions that are noted after a call. -/
def newEvents (s : KqueueProxy) : KqCall → KqEvents
  | .add _ fd events => (s.kqrefs fd).events ∪ events
  | .del _ fd events => ((s.kqrefs fd).detachEvents events).restEvents events false
  | .delRef _ fd events use_ref => ((s.kqrefs fd).detachEvents events).restEvents events use_ref

/-- The directions that a call adds to the kqueue. -/
def readded (s : KqueueProxy) : KqCall → KqEvents
  | .add _ _ events => events
  | c => newEvents s c

/-- The changes that a call asks for.  It asks for none if nothing would change, or if there is no
record. -/
def callChanges (s : KqueueProxy) (c : KqCall) : List KqChange :=
  if (s.kqFdRefGet c.fd).isSome ∧ (s.kqrefs c.fd).events ≠ newEvents s c then
    rewrites (s.kqrefs c.fd).events (readded s c)
  else []

section Changes

theorem signExtend_inj {a b : BitVec 32} (h : a.signExtend 64 = b.signExtend 64) : a = b := by
  have ha := congrArg BitVec.toInt h
  rw [BitVec.toInt_signExtend_of_le (by decide), BitVec.toInt_signExtend_of_le (by decide)] at ha
  exact BitVec.eq_of_toInt_eq ha

/-- The identifier of a descriptor that has a record. -/
theorem ident_lt (h : (s.kqFdRefGet fd).isSome = true) : ¬ 2 ^ 31 ≤ (fd.signExtend 64).toNat := by
  unfold kqFdRefGet at h
  split at h
  · cases h
  · rename_i hrange
    have hneg : fd.msb = false := by
      cases hm : fd.msb with
      | false => rfl
      | true =>
        exfalso
        apply hrange
        rw [Bool.or_eq_true]
        right
        exact BitVec.slt_zero_eq_msb.trans hm
    rw [BitVec.signExtend_eq_setWidth_of_msb_false hneg, BitVec.toNat_setWidth]
    have hlt := BitVec.toNat_lt_of_msb_false hneg
    omega

theorem registered_set (kq : KnoteTable) (fd : BitVec 32) (dir : EvFilter) (kn : Option Knote) :
    registered (kq.set (fd.signExtend 64) dir kn) fd =
      if kn.isSome then insert dir (registered kq fd) else (registered kq fd).erase dir := by
  ext d
  by_cases hd : d = dir
  · subst hd
    rw [mem_registered, KnoteTable.set_same]
    split <;> simp_all
  · rw [mem_registered, KnoteTable.set_filter_ne _ _ _ hd]
    split <;> simp [hd, mem_registered]

theorem registered_set_of_ne {fd' : BitVec 32} (h : fd' ≠ fd) (dir : EvFilter) (kn : Option Knote) :
    registered (kq.set (fd.signExtend 64) dir kn) fd' = registered kq fd' := by
  ext d
  have hne : fd'.signExtend 64 ≠ fd.signExtend 64 := fun heq => h (signExtend_inj heq)
  rw [mem_registered, mem_registered, KnoteTable.set_ident_ne _ hne]

theorem register_del (hfd : ¬ 2 ^ 31 ≤ (fd.signExtend 64).toNat) (hdir : dir ∈ registered kq fd)
    (hok : refused env (delChange dir) = false) :
    kqueueRegister (env (delChange dir)) kq
        { ident := fd.signExtend 64, filter := dir, flags := (delChange dir).1 } =
      .ok (kq.set (fd.signExtend 64) dir none) := by
  obtain ⟨kn, hkn⟩ := Option.isSome_iff_exists.mp (mem_registered.mp hdir)
  simp only [refused, delChange, Bool.false_and, Bool.or_false, Option.isSome_eq_false_iff,
    Option.isNone_iff_eq_none] at hok
  rw [kqueueRegister, if_neg (by simp [delChange]), if_neg hfd]
  simp [delChange, hok, hkn]

theorem register_add (hfd : ¬ 2 ^ 31 ≤ (fd.signExtend 64).toNat) (hdir : dir ∉ registered kq fd)
    (hok : refused env (addChange dir) = false) :
    ∃ kn, kqueueRegister (env (addChange dir)) kq
        { ident := fd.signExtend 64, filter := dir, flags := (addChange dir).1 } =
      .ok (kq.set (fd.signExtend 64) dir (some kn)) := by
  rw [mem_registered, Bool.not_eq_true, Option.isSome_eq_false_iff, Option.isNone_iff_eq_none] at hdir
  simp only [refused, addChange, Bool.true_and, Bool.or_eq_false_iff, Option.isSome_eq_false_iff,
    Option.isNone_iff_eq_none] at hok
  refine ⟨newKnote { ident := fd.signExtend 64, filter := dir, flags := (addChange dir).1 }, ?_⟩
  rw [kqueueRegister, if_neg (by simp [addChange]), if_neg hfd]
  simp [addChange, hok.1, hok.2, hdir]

/-- Deletions that are not refused go on with what comes after them. -/
theorem ffKevents_dels (hfd : ¬ 2 ^ 31 ≤ (fd.signExtend 64).toNat) (rest : List KqChange)
    {dirs : List EvFilter} (hnodup : dirs.Nodup) (hmem : ∀ dir ∈ dirs, dir ∈ registered kq fd)
    (hok : ∀ dir ∈ dirs, refused env (delChange dir) = false) :
    ∃ kq', ffKevents env fd (dirs.map delChange ++ rest) kq = ffKevents env fd rest kq' ∧
      registered kq' fd = registered kq fd \ dirs.toFinset ∧
      ∀ fd', fd' ≠ fd → registered kq' fd' = registered kq fd' := by
  induction dirs generalizing kq with
  | nil => exact ⟨kq, rfl, by simp, fun _ _ => rfl⟩
  | cons dir dirs ih =>
    rw [List.forall_mem_cons] at hmem hok
    rw [List.nodup_cons] at hnodup
    have hset := registered_set kq fd dir none
    have hrest : ∀ d ∈ dirs, d ∈ registered (kq.set (fd.signExtend 64) dir none) fd := by
      intro d hd
      rw [hset, if_neg (by simp), Finset.mem_erase]
      refine ⟨?_, hmem.2 d hd⟩
      rintro rfl
      exact hnodup.1 hd
    obtain ⟨kq', heq, hreg, hother⟩ := ih hnodup.2 hrest hok.2
    refine ⟨kq', ?_, ?_, ?_⟩
    · rw [List.map_cons, List.cons_append, ← heq]
      have hone := register_del hfd hmem.1 hok.1
      simp only [delChange] at hone
      simp only [delChange, ffKevents, hone]
    · rw [hreg, hset, if_neg (by simp), List.toFinset_cons, Finset.erase_sdiff_comm,
        Finset.sdiff_insert]
    · intro fd' hne
      rw [hother fd' hne, registered_set_of_ne hne]

/-- Additions that are not refused are made. -/
theorem ffKevents_adds (hfd : ¬ 2 ^ 31 ≤ (fd.signExtend 64).toNat) {dirs : List EvFilter}
    (hnodup : dirs.Nodup) (hmem : ∀ dir ∈ dirs, dir ∉ registered kq fd)
    (hok : ∀ dir ∈ dirs, refused env (addChange dir) = false) :
    ∃ kq', ffKevents env fd (dirs.map addChange) kq = (kq', true) ∧
      registered kq' fd = registered kq fd ∪ dirs.toFinset ∧
      ∀ fd', fd' ≠ fd → registered kq' fd' = registered kq fd' := by
  induction dirs generalizing kq with
  | nil => exact ⟨kq, rfl, by simp, fun _ _ => rfl⟩
  | cons dir dirs ih =>
    rw [List.forall_mem_cons] at hmem hok
    rw [List.nodup_cons] at hnodup
    obtain ⟨kn, hone⟩ := register_add hfd hmem.1 hok.1
    have hset := registered_set kq fd dir (some kn)
    have hrest : ∀ d ∈ dirs, d ∉ registered (kq.set (fd.signExtend 64) dir (some kn)) fd := by
      intro d hd
      rw [hset, if_pos (by simp), Finset.mem_insert, not_or]
      refine ⟨?_, hmem.2 d hd⟩
      rintro rfl
      exact hnodup.1 hd
    obtain ⟨kq', heq, hreg, hother⟩ := ih hnodup.2 hrest hok.2
    refine ⟨kq', ?_, ?_, ?_⟩
    · rw [List.map_cons, ← heq]
      simp only [addChange] at hone
      simp only [addChange, ffKevents, hone]
    · rw [hreg, hset, if_pos (by simp), List.toFinset_cons, Finset.insert_union, Finset.union_insert]
    · intro fd' hne
      rw [hother fd' hne, registered_set_of_ne hne]

theorem toFinset_filter_dirs (events : KqEvents) :
    ([EvFilter.write, .read].filter (· ∈ events)).toFinset = events := by
  ext dir
  cases dir <;> simp

theorem nodup_filter_dirs (events : KqEvents) : ([EvFilter.write, .read].filter (· ∈ events)).Nodup := by
  apply List.Nodup.filter
  decide

/-- If no change is refused, the filters are in the end those that are added. -/
theorem ffKevents_rewrites (hfd : ¬ 2 ^ 31 ≤ (fd.signExtend 64).toNat) {events : KqEvents}
    (hok : ∀ ch ∈ rewrites (registered kq fd) events, refused env ch = false) :
    ∃ kq', ffKevents env fd (rewrites (registered kq fd) events) kq = (kq', true) ∧
      registered kq' fd = events ∧ ∀ fd', fd' ≠ fd → registered kq' fd' = registered kq fd' := by
  simp only [rewrites, List.forall_mem_append, List.forall_mem_map] at hok
  obtain ⟨kq₁, heq, hreg₁, hother₁⟩ := ffKevents_dels hfd
    (([EvFilter.write, .read].filter (· ∈ events)).map addChange) (nodup_filter_dirs (registered kq fd))
    (fun dir hdir => by simpa using (List.mem_filter.mp hdir).2) hok.1
  rw [toFinset_filter_dirs, Finset.sdiff_self] at hreg₁
  obtain ⟨kq₂, heq₂, hreg₂, hother₂⟩ := ffKevents_adds hfd (nodup_filter_dirs events)
    (fun dir _ => by rw [hreg₁]; exact Finset.notMem_empty dir) hok.2
  rw [hreg₁, toFinset_filter_dirs, Finset.empty_union] at hreg₂
  refine ⟨kq₂, ?_, hreg₂, ?_⟩
  · rw [rewrites, heq, heq₂]
  · intro fd' hne
    rw [hother₂ fd' hne, hother₁ fd' hne]

/-- A deletion that is refused fails. -/
theorem register_del_refused (kq : KnoteTable) (fd : BitVec 32) (hno : refused env (delChange dir) = true) :
    ∃ e, kqueueRegister (env (delChange dir)) kq
      { ident := fd.signExtend 64, filter := dir, flags := (delChange dir).1 } = .error e := by
  simp only [refused, delChange, Bool.false_and, Bool.or_false, Option.isSome_iff_exists] at hno
  obtain ⟨e, he⟩ := hno
  rw [kqueueRegister, if_neg (by simp [delChange])]
  split
  · exact ⟨.EBADF, rfl⟩
  · exact ⟨e, by simp [delChange, he]⟩

/-- An addition that is refused fails if there is no knote. -/
theorem register_add_refused (hdir : dir ∉ registered kq fd) (hno : refused env (addChange dir) = true) :
    ∃ e, kqueueRegister (env (addChange dir)) kq
      { ident := fd.signExtend 64, filter := dir, flags := (addChange dir).1 } = .error e := by
  rw [mem_registered, Bool.not_eq_true, Option.isSome_eq_false_iff, Option.isNone_iff_eq_none] at hdir
  simp only [refused, addChange, Bool.true_and, Bool.or_eq_true, Option.isSome_iff_exists] at hno
  rw [kqueueRegister, if_neg (by simp [addChange])]
  split
  · exact ⟨.EBADF, rfl⟩
  · simp only [addChange, hdir]
    cases hget : (env ({ EV_ADD := true }, dir)).fget with
    | some e => exact ⟨e, rfl⟩
    | none =>
      rcases hno with ⟨e, he⟩ | ⟨e, he⟩
      · rw [hget] at he
        cases he
      · exact ⟨e, by simp [he]⟩

/-- If the first change is refused, nothing happens. -/
theorem ffKevents_first {events : KqEvents} (first : KqChange)
    (hfirst : first ∈ (rewrites (registered kq fd) events).head?) (hno : refused env first = true) :
    ffKevents env fd (rewrites (registered kq fd) events) kq = (kq, false) := by
  have hset := toFinset_filter_dirs (registered kq fd)
  unfold rewrites at hfirst ⊢
  cases hdels : [EvFilter.write, .read].filter (· ∈ registered kq fd) with
  | cons dir dels =>
    rw [hdels] at hfirst
    cases hfirst
    obtain ⟨e, he⟩ := register_del_refused kq fd hno
    simp only [delChange] at he
    simp only [List.map_cons, List.cons_append, delChange, ffKevents, he]
  | nil =>
    -- there is no knote to delete, so the additions come first
    rw [hdels, List.toFinset_nil] at hset
    rw [hdels, List.map_nil, List.nil_append] at hfirst
    rw [List.map_nil, List.nil_append]
    cases hadds : [EvFilter.write, .read].filter (· ∈ events) with
    | nil =>
      rw [hadds] at hfirst
      cases hfirst
    | cons dir adds =>
      rw [hadds] at hfirst
      cases hfirst
      have hdir : dir ∉ registered kq fd := by
        rw [← hset]
        exact Finset.notMem_empty dir
      obtain ⟨e, he⟩ := register_add_refused hdir hno
      simp only [addChange] at he
      simp only [List.map_cons, addChange, ffKevents, he]

end Changes

section Calls

theorem kqFdRefGet_some {ref : KqFdRef} (h : s.kqFdRefGet fd = some ref) : ref = s.kqrefs fd := by
  unfold kqFdRefGet at h
  split at h
  · cases h
  · cases h
    rfl

/-- The common end of the calls: a record for the case that nothing changes, one for the case that the
changes are made and one for the case that one of them fails. -/
theorem tail_cases (s : KqueueProxy) (env : KqEnv) (fd : BitVec 32) {old new : KqEvents}
    (add : KqEvents) (same done failed : KqFdRef) (hsame : same.events = old)
    (hdone : done.events = new) (hfailed : failed.events = old) {r : KqueueProxy × Bool}
    (hr : r = if old = new then (s.setRef fd same, true)
      else if (ffKevents env fd (rewrites old add) s.kq).2 then
        ({ s.setRef fd done with kq := (ffKevents env fd (rewrites old add) s.kq).1 }, true)
      else ({ s.setRef fd failed with kq := (ffKevents env fd (rewrites old add) s.kq).1 }, false)) :
    (old = new ∧ ∃ item : KqFdRef, item.events = new ∧ r = (s.setRef fd item, true)) ∨
    (old ≠ new ∧ ∃ item : KqFdRef,
      (item.events = if (ffKevents env fd (rewrites old add) s.kq).2 then new else old) ∧
      r = ({ s.setRef fd item with kq := (ffKevents env fd (rewrites old add) s.kq).1 },
        (ffKevents env fd (rewrites old add) s.kq).2)) := by
  by_cases heq : old = new
  · rw [if_pos heq] at hr
    exact Or.inl ⟨heq, same, hsame.trans heq, hr⟩
  · right
    refine ⟨heq, ?_⟩
    rw [if_neg heq] at hr
    cases hok : (ffKevents env fd (rewrites old add) s.kq).2 with
    | true =>
      rw [if_pos hok] at hr
      exact ⟨done, hdone, hr⟩
    | false =>
      rw [hok] at hr
      exact ⟨failed, hfailed, hr⟩

/-- What a call does, apart from the reference counts. -/
theorem call_cases (s : KqueueProxy) (c : KqCall) :
    (s.kqFdRefGet c.fd = none ∧ s.call c = (s, false)) ∨
    ((s.kqFdRefGet c.fd).isSome = true ∧
      (((s.kqrefs c.fd).events = newEvents s c ∧
        ∃ item : KqFdRef, item.events = newEvents s c ∧ s.call c = (s.setRef c.fd item, true)) ∨
      ((s.kqrefs c.fd).events ≠ newEvents s c ∧
        ∃ item : KqFdRef,
          (item.events =
            if (ffKevents c.env c.fd (rewrites (s.kqrefs c.fd).events (readded s c)) s.kq).2 then
              newEvents s c else (s.kqrefs c.fd).events) ∧
          s.call c = ({ s.setRef c.fd item with
              kq := (ffKevents c.env c.fd (rewrites (s.kqrefs c.fd).events (readded s c)) s.kq).1 },
            (ffKevents c.env c.fd (rewrites (s.kqrefs c.fd).events (readded s c)) s.kq).2)))) := by
  cases href : s.kqFdRefGet c.fd with
  | none =>
    refine Or.inl ⟨rfl, ?_⟩
    cases c with
    | add env fd events =>
      change s.kqFdRefGet fd = none at href
      simp only [call, kqueueCtrlAdd, href]
    | del env fd events =>
      change s.kqFdRefGet fd = none at href
      simp only [call, kqueueCtrlDel, kqueueCtrlDelRef, href]
    | delRef env fd events use_ref =>
      change s.kqFdRefGet fd = none at href
      simp only [call, kqueueCtrlDelRef, href]
  | some ref =>
    refine Or.inr ⟨rfl, ?_⟩
    obtain rfl := kqFdRefGet_some href
    cases c with
    | add env fd events =>
      change s.kqFdRefGet fd = _ at href
      apply tail_cases s env fd events ((s.kqrefs fd).attachEvents events)
        { (s.kqrefs fd).attachEvents events with events := (s.kqrefs fd).events ∪ events }
        (((s.kqrefs fd).attachEvents events).detachEvents events) rfl rfl rfl
      simp only [call, kqueueCtrlAdd, href]
      rfl
    | del env fd events =>
      change s.kqFdRefGet fd = _ at href
      apply tail_cases s env fd _ ((s.kqrefs fd).detachEvents events)
        { (s.kqrefs fd).detachEvents events with
          events := ((s.kqrefs fd).detachEvents events).restEvents events false }
        ((s.kqrefs fd).detachEvents events) rfl rfl rfl
      simp only [call, kqueueCtrlDel, kqueueCtrlDelRef, href]
      rfl
    | delRef env fd events use_ref =>
      change s.kqFdRefGet fd = _ at href
      apply tail_cases s env fd _ ((s.kqrefs fd).detachEvents events)
        { (s.kqrefs fd).detachEvents events with
          events := ((s.kqrefs fd).detachEvents events).restEvents events use_ref }
        ((s.kqrefs fd).detachEvents events) rfl rfl rfl
      simp only [call, kqueueCtrlDelRef, href]
      rfl

/-- The filters of the descriptor after a call that returns true are those of its record. -/
def CallMirrors (s : KqueueProxy) (c : KqCall) : Prop :=
  (s.call c).2 = true → registered (s.step c).kq c.fd = ((s.step c).kqrefs c.fd).events

/-- A call of `KqueueCtrlAdd` that changes something names the directions that are listened to. -/
def NamesListened (s : KqueueProxy) : KqCall → Prop
  | .add env fd events => callChanges s (.add env fd events) ≠ [] → (s.kqrefs fd).events ⊆ events
  | _ => True

/-- The first change of a call fails. -/
def FailsAtOnce (s : KqueueProxy) (c : KqCall) : Prop :=
  ∃ first ∈ (callChanges s c).head?, refused c.env first = true

/-- No change of a call fails. -/
def NeverFails (s : KqueueProxy) (c : KqCall) : Prop :=
  ∀ ch ∈ callChanges s c, refused c.env ch = false

/-- Another record, with the same directions as the filters. -/
theorem Mirrored.setRef (h : Mirrored s) {item : KqFdRef} {kq' : KnoteTable}
    (hitem : registered kq' fd = item.events)
    (hother : ∀ fd', fd' ≠ fd → registered kq' fd' = registered s.kq fd') :
    Mirrored { s.setRef fd item with kq := kq' } := by
  intro fd'
  by_cases hfd : fd' = fd
  · subst hfd
    simpa [KqueueProxy.setRef] using hitem
  · simpa [KqueueProxy.setRef, hfd] using (hother fd' hfd).trans (h fd')

theorem readded_eq (hchanges : callChanges s c ≠ []) (h : NamesListened s c) :
    newEvents s c = readded s c := by
  cases c with
  | add env fd events => exact Finset.union_eq_right.mpr (h hchanges)
  | del env fd events => rfl
  | delRef env fd events use_ref => rfl

/-- The changes that a call makes when it makes any. -/
theorem callChanges_eq (hsome : (s.kqFdRefGet c.fd).isSome = true) (hne : (s.kqrefs c.fd).events ≠ newEvents s c)
    :
    callChanges s c = rewrites (s.kqrefs c.fd).events (readded s c) :=
  if_pos ⟨hsome, hne⟩

theorem callChanges_ne_nil (hsome : (s.kqFdRefGet c.fd).isSome = true)
    (hne : (s.kqrefs c.fd).events ≠ newEvents s c) : callChanges s c ≠ [] := by
  rw [callChanges_eq hsome hne]
  intro hnil
  rw [rewrites, List.append_eq_nil_iff, List.map_eq_nil_iff, List.map_eq_nil_iff] at hnil
  have hold := toFinset_filter_dirs (s.kqrefs c.fd).events
  have hadd := toFinset_filter_dirs (readded s c)
  rw [hnil.1, List.toFinset_nil] at hold
  rw [hnil.2, List.toFinset_nil] at hadd
  apply hne
  cases c with
  | add env fd events =>
    change ∅ = events at hadd
    change _ = (s.kqrefs fd).events ∪ events
    rw [← hadd, Finset.union_empty]
    rfl
  | del env fd events => exact hold.symm.trans hadd
  | delRef env fd events use_ref => exact hold.symm.trans hadd

/-- A call that changes something and meets no failure: the filters are then those that it adds. -/
theorem call_neverFails (h : Mirrored s) (c : KqCall) (hsome : (s.kqFdRefGet c.fd).isSome = true)
    (hne : (s.kqrefs c.fd).events ≠ newEvents s c) (hok : NeverFails s c) :
    ∃ (item : KqFdRef) (kq' : KnoteTable), item.events = newEvents s c ∧
      s.call c = ({ s.setRef c.fd item with kq := kq' }, true) ∧ registered kq' c.fd = readded s c ∧
      ∀ fd', fd' ≠ c.fd → registered kq' fd' = registered s.kq fd' := by
  unfold NeverFails at hok
  rw [callChanges_eq hsome hne, ← h c.fd] at hok
  obtain ⟨kq', heq, hreg, hother⟩ := ffKevents_rewrites (ident_lt hsome) hok
  rw [h c.fd] at heq
  rcases call_cases s c with ⟨hnone, -⟩ | ⟨-, ⟨hsame, -⟩ | ⟨-, item, hitem, hcall⟩⟩
  · rw [hnone] at hsome
    cases hsome
  · exact absurd hsame hne
  · rw [heq] at hitem hcall
    exact ⟨item, kq', hitem, hcall, hreg, hother⟩

/-- **A call keeps the filters and the records together** if its changes fail at once, or do
not fail and add what is noted. -/
theorem call_mirrored (h : Mirrored s) (hc : FailsAtOnce s c ∨ NeverFails s c ∧ NamesListened s c) :
    Mirrored (s.step c) := by
  unfold step
  rcases call_cases s c with ⟨-, heq⟩ | ⟨hsome, ⟨hsame, item, hitem, heq⟩ | ⟨hne, item, hitem, heq⟩⟩
  · rw [heq]
    exact h
  · rw [heq]
    apply h.setRef
    · rw [hitem, ← hsame]
      exact h c.fd
    · exact fun _ _ => rfl
  · rcases hc with ⟨first, hfirst, hno⟩ | ⟨hok, hnames⟩
    · rw [callChanges_eq hsome hne, ← h c.fd] at hfirst
      have hfail := ffKevents_first _ hfirst hno
      rw [h c.fd] at hfail
      rw [hfail] at hitem heq
      rw [heq]
      apply h.setRef
      · rw [hitem]
        exact h c.fd
      · exact fun _ _ => rfl
    · obtain ⟨item', kq', hitem', hcall, hreg, hother⟩ := call_neverFails h c hsome hne hok
      rw [hcall]
      apply h.setRef
      · rw [hitem', hreg, readded_eq (callChanges_ne_nil hsome hne) hnames]
      · exact hother

/-- INTERNAL: a call that meets no failure has to name what is listened to. -/
theorem namesListened_of_mirrors (h : Mirrored s) (hok : NeverFails s c) (hm : CallMirrors s c) :
    NamesListened s c := by
  cases c with
  | del env fd events => trivial
  | delRef env fd events use_ref => trivial
  | add env fd events =>
    intro hchanges
    by_cases hdo : (s.kqFdRefGet fd).isSome = true ∧ (s.kqrefs fd).events ≠ newEvents s (.add env fd events)
    · obtain ⟨item, kq', hitem, hcall, hreg, -⟩ := call_neverFails h (.add env fd events) hdo.1 hdo.2 hok
      unfold CallMirrors step at hm
      rw [hcall] at hm
      have hkept : registered kq' fd = ((s.setRef fd item).kqrefs fd).events := hm rfl
      have hnoted : ((s.setRef fd item).kqrefs fd).events = (s.kqrefs fd).events ∪ events := by
        have hself : (s.setRef fd item).kqrefs fd = item := by simp [KqueueProxy.setRef]
        rw [hself, hitem]
        rfl
      rw [hnoted] at hkept
      exact Finset.union_eq_right.mp (hkept.symm.trans hreg)
    · exact absurd (if_neg hdo) hchanges

theorem mirrored_init (max_num : BitVec 32) : Mirrored (initKqueue max_num) := by
  intro fd
  rfl

/-- INTERNAL: `namesListened_of_mirrors` along a run. -/
theorem namesListened_run {calls : List KqCall} (h : Mirrored s)
    (hu : AllSteps step (fun s c => FailsAtOnce s c ∨ NeverFails s c) s calls)
    (hm : AllSteps step CallMirrors s calls) :
    AllSteps step (fun s c => FailsAtOnce s c ∨ NeverFails s c ∧ NamesListened s c) s calls := by
  induction calls generalizing s with
  | nil => trivial
  | cons c calls ih =>
    rw [allSteps_cons] at hu hm ⊢
    have hc : FailsAtOnce s c ∨ NeverFails s c ∧ NamesListened s c := by
      rcases hu.1 with hfails | hok
      · exact Or.inl hfails
      · exact Or.inr ⟨hok, namesListened_of_mirrors h hok hm.1⟩
    exact ⟨hc, ih (call_mirrored h hc) hu.2 hm.2⟩

/-- **The filters in the kqueue and the records.**  In a run in which every call either fails
at its first change, or does not fail and names, if it adds a direction, those that are listened to, the
filters of a descriptor are after every call that returns true those of its record.  Of the runs whose
calls fail at once or never, this is so in these only.
SOURCE: kqueue_proxy.cpp:168-311 -/
theorem kqueueCtrl_mirrors (max_num : BitVec 32) (calls : List KqCall) :
    (AllSteps step (fun s c => FailsAtOnce s c ∨ NeverFails s c ∧ NamesListened s c)
        (initKqueue max_num) calls →
      AllSteps step CallMirrors (initKqueue max_num) calls) ∧
    (AllSteps step (fun s c => FailsAtOnce s c ∨ NeverFails s c) (initKqueue max_num) calls →
      AllSteps step CallMirrors (initKqueue max_num) calls →
      AllSteps step (fun s c => FailsAtOnce s c ∨ NeverFails s c ∧ NamesListened s c)
        (initKqueue max_num) calls) := by
  constructor
  · intro h
    apply AllSteps.imp (I := Mirrored) _ _ (mirrored_init max_num) h
    · intro s c hs hc
      exact call_mirrored hs hc
    · intro s c hs hc _
      exact call_mirrored hs hc c.fd
  · exact namesListened_run (mirrored_init max_num)

/-- Reading is listened to; a call for writing fails at once; the next one names both; and reading is given up. -/
def widenedRun : List KqCall :=
  [.add (fun _ => {}) 5 {.read}, .add (fun _ => { fget := some .EBADF }) 5 {.write},
    .add (fun _ => {}) 5 {.read, .write}, .delRef (fun _ => {}) 5 {.read} true]

theorem kqueueCtrl_mirrors_widened : AllSteps step CallMirrors (initKqueue 0) widenedRun := by
  have hnever : ∀ {s c}, (callChanges s c).all (fun ch => !refused c.env ch) = true → NeverFails s c := by
    intro s c hall ch hch
    simpa using List.all_eq_true.mp hall ch hch
  refine (kqueueCtrl_mirrors 0 widenedRun).1 ⟨.inr ⟨hnever ?_, fun _ => ?_⟩, .inl ⟨_, rfl, ?_⟩,
    .inr ⟨hnever ?_, fun _ => ?_⟩, .inr ⟨hnever ?_, trivial⟩, trivial⟩
  all_goals decide

/-- Reading is listened to, and then writing too: only the filter for writing is left. -/
theorem kqueueCtrlAdd_drops_read :
    ¬ AllSteps step CallMirrors (initKqueue 0)
      [.add (fun _ => {}) 5 {.read}, .add (fun _ => {}) 5 {.write}] := by
  intro h
  exact absurd (h.2.1 (by decide)) (by decide)

end Calls

end FStack.Analysis
