import FStack.Analysis.KqueueMirror
import FStack.Prelude.Rollback

/-!
# The kqSlots of a kqueue

For each descriptor there are four pieces of state: the filters in the kqueue, the events in its record, the two
reference counts and the object that is notified.  `KqSlot` has them.  The registration of an object works on the slot of
its descriptor alone (`slots_kqueueAddObj`), and the two loops of `KqueueAdd` are an attempt and its undoing over the
slots (`slots_addLoop`, `slots_rollBack`).
-/

set_option autoImplicit false

namespace FStack.Analysis

open FStack.Model FStack.Prelude FStack.Model.KqueueProxy

/-! ## The changes of one descriptor -/

/-- A change fails, with these filters of the descriptor in the kqueue. -/
def changeFails (env : KqEnv) (filters : KqEvents) (ch : KqChange) : Bool :=
  (env ch).fget.isSome || (decide (ch.2 ∉ filters) && (!ch.1.EV_ADD || ((env ch).attach ch.2).isSome))

/-- The filters after changes, up to the first that fails. -/
def makeChanges (env : KqEnv) : List KqChange → KqEvents → KqEvents × Bool
  | [], filters => (filters, true)
  | ch :: rest, filters =>
    if changeFails env filters ch then (filters, false)
    else makeChanges env rest (if ch.1.EV_DELETE then filters.erase ch.2 else insert ch.2 filters)

section Changes

variable {kq : KnoteTable} {fd : BitVec 32} {env : KqEnv}

/-- One change, as `kqueue_register` makes it. -/
theorem register_change (hfd : ¬ 2 ^ 31 ≤ (fd.signExtend 64).toNat) {flags : EvFlags} {dir : EvFilter}
    (hflags : flags = { EV_DELETE := true } ∨ flags = { EV_ADD := true }) :
    (changeFails env (registered kq fd) (flags, dir) = true ∧
      ∃ e, kqueueRegister (env (flags, dir)) kq { ident := fd.signExtend 64, filter := dir, flags := flags } = .error e) ∨
    (changeFails env (registered kq fd) (flags, dir) = false ∧
      ∃ kn, kqueueRegister (env (flags, dir)) kq { ident := fd.signExtend 64, filter := dir, flags := flags } =
        .ok (kq.set (fd.signExtend 64) dir kn) ∧ kn.isSome = !flags.EV_DELETE) := by
  have henable : (flags.EV_ENABLE && flags.EV_DISABLE) = false := by
    rcases hflags with rfl | rfl <;> rfl
  rw [kqueueRegister, henable, if_neg Bool.false_ne_true, if_neg hfd]
  unfold changeFails
  cases hget : (env (flags, dir)).fget with
  | some e => exact Or.inl ⟨rfl, e, rfl⟩
  | none =>
    cases hkn : kq (fd.signExtend 64) dir with
    | some kn =>
      have hmem : dir ∈ registered kq fd := mem_registered.mpr (by rw [hkn]; rfl)
      refine Or.inr ⟨by simp [hmem], ?_⟩
      rcases hflags with rfl | rfl
      · exact ⟨none, by simp, rfl⟩
      · exact ⟨_, rfl, rfl⟩
    | none =>
      have hmem : dir ∉ registered kq fd := fun h => by simpa [hkn] using mem_registered.mp h
      rcases hflags with rfl | rfl
      · exact Or.inl ⟨by simp [hmem], .ENOENT, rfl⟩
      · cases hattach : (env (({ EV_ADD := true } : EvFlags), dir)).attach dir with
        | some e => exact Or.inl ⟨by simp [hmem], e, by simp⟩
        | none => exact Or.inr ⟨by simp [hmem], _, rfl, rfl⟩

/-- Deletions and additions. -/
def IsChange (ch : KqChange) : Prop := ch.1 = { EV_DELETE := true } ∨ ch.1 = { EV_ADD := true }

theorem rewrites_isChange (old_events events : KqEvents) : ∀ ch ∈ rewrites old_events events, IsChange ch := by
  intro ch hch
  rcases List.mem_append.mp hch with hch | hch
  · obtain ⟨dir, -, rfl⟩ := List.mem_map.mp hch
    exact Or.inl rfl
  · obtain ⟨dir, -, rfl⟩ := List.mem_map.mp hch
    exact Or.inr rfl

/-- The kqueue, as far as it is about one descriptor, is a set of filters. -/
theorem ffKevents_filters (hfd : ¬ 2 ^ 31 ≤ (fd.signExtend 64).toNat) {changes : List KqChange}
    (hchanges : ∀ ch ∈ changes, IsChange ch) (kq : KnoteTable) :
    registered (ffKevents env fd changes kq).1 fd = (makeChanges env changes (registered kq fd)).1 ∧
      (ffKevents env fd changes kq).2 = (makeChanges env changes (registered kq fd)).2 ∧
      ∀ fd', fd' ≠ fd → registered (ffKevents env fd changes kq).1 fd' = registered kq fd' := by
  induction changes generalizing kq with
  | nil => exact ⟨rfl, rfl, fun _ _ => rfl⟩
  | cons ch rest ih =>
    obtain ⟨flags, dir⟩ := ch
    rw [List.forall_mem_cons] at hchanges
    unfold ffKevents makeChanges
    rcases @register_change kq fd env hfd flags dir hchanges.1 with ⟨hfails, e, herror⟩ | ⟨hfails, kn, hok, hkn⟩
    · rw [herror, if_pos hfails]
      exact ⟨rfl, rfl, fun _ _ => rfl⟩
    · have hset : registered (kq.set (fd.signExtend 64) dir kn) fd =
          if flags.EV_DELETE then (registered kq fd).erase dir else insert dir (registered kq fd) := by
        rw [registered_set, hkn]
        cases flags.EV_DELETE <;> rfl
      obtain ⟨hself, hret, hother⟩ := ih hchanges.2 (kq.set (fd.signExtend 64) dir kn)
      rw [hok, hfails, if_neg Bool.false_ne_true]
      dsimp only
      rw [← hset]
      exact ⟨hself, hret, fun fd' hne => (hother fd' hne).trans (registered_set_of_ne hne dir kn)⟩

end Changes

/-! ## The slot of a descriptor -/

/-- What there is for a descriptor: its record, the filters in the kqueue, and the object that is notified. -/
structure KqSlot where
  ref : KqFdRef
  filters : KqEvents
  obj : Option ℕ
deriving DecidableEq

namespace KqSlot

def ctrlAdd (slot : KqSlot) (env : KqEnv) (events : KqEvents) : KqSlot × Bool :=
  let item := slot.ref.attachEvents events
  let new_events := slot.ref.events ∪ events
  if slot.ref.events = new_events then ({ slot with ref := item }, true)
  else
    let (filters, ok) := makeChanges env (rewrites slot.ref.events events) slot.filters
    if ok then ({ slot with ref := { item with events := new_events }, filters := filters }, true)
    else ({ slot with ref := item.detachEvents events, filters := filters }, false)

def ctrlDel (slot : KqSlot) (env : KqEnv) (events : KqEvents) : KqSlot × Bool :=
  let item := slot.ref.detachEvents events
  let new_events := slot.ref.events \ events
  if slot.ref.events = new_events then ({ slot with ref := item }, true)
  else
    let (filters, ok) := makeChanges env (rewrites slot.ref.events new_events) slot.filters
    if ok then ({ slot with ref := { item with events := new_events }, filters := filters }, true)
    else ({ slot with ref := item, filters := filters }, false)

/-- An object is registered; `inRange` says whether there is a record for its descriptor. -/
def add (slot : KqSlot) (inRange : Bool) (env : KqEnv) (obj : ℕ) (events : KqEvents) : KqSlot × Bool :=
  if inRange = false then (slot, false)
  else if slot.obj ≠ none ∧ slot.obj ≠ some obj then (slot, false)
  else
    let (after, ok) := slot.ctrlAdd env events
    if ok then ({ after with obj := some obj }, true) else (after, false)

def del (slot : KqSlot) (inRange : Bool) (env : KqEnv) (obj : ℕ) (events : KqEvents) : KqSlot × Bool :=
  if inRange = false then (slot, false)
  else if slot.obj ≠ some obj then (slot, false)
  else
    let (after, ok) := slot.ctrlDel env events
    if ok then ({ after with obj := none }, true) else (after, false)

end KqSlot

/-- The slots of all descriptors. -/
def kqSlots (s : NotifyProxy) (fd : BitVec 32) : KqSlot := ⟨s.proxy.kqrefs fd, registered s.proxy.kq fd, s.kqobj fd⟩

/-- There is a record for the descriptor of an object. -/
def objInRange (s : NotifyProxy) (obj : ℕ) : Bool := (s.proxy.kqFdRefGet (s.fd obj)).isSome

section Slots

variable {s : NotifyProxy} {fd : BitVec 32} {env : KqEnv}

theorem slots_setNotifyObj (s : NotifyProxy) (fd : BitVec 32) (obj : Option ℕ) :
    kqSlots (s.setNotifyObj fd obj) = Function.update (kqSlots s) fd { kqSlots s fd with obj := obj } := by
  funext fd'
  by_cases h : fd' = fd
  · subst h
    rw [Function.update_self]
    simp [kqSlots, NotifyProxy.setNotifyObj]
  · rw [Function.update_of_ne h]
    simp [kqSlots, NotifyProxy.setNotifyObj, h]

/-- One record and the filters of one descriptor are written. -/
theorem slots_setRef (s : NotifyProxy) {item : KqFdRef} {kq : KnoteTable}
    (hother : ∀ fd', fd' ≠ fd → registered kq fd' = registered s.proxy.kq fd') :
    kqSlots { s with proxy := { s.proxy.setRef fd item with kq := kq } } =
      Function.update (kqSlots s) fd ⟨item, registered kq fd, s.kqobj fd⟩ := by
  funext fd'
  by_cases h : fd' = fd
  · subst h
    rw [Function.update_self]
    simp [kqSlots, KqueueProxy.setRef]
  · rw [Function.update_of_ne h]
    simp [kqSlots, KqueueProxy.setRef, h, hother fd' h]

/-- A record is written and nothing else. -/
theorem slots_setItem (s : NotifyProxy) (fd : BitVec 32) (item : KqFdRef) :
    kqSlots { s with proxy := s.proxy.setRef fd item } = Function.update (kqSlots s) fd { kqSlots s fd with ref := item } := by
  have hother : ∀ fd', fd' ≠ fd → registered s.proxy.kq fd' = registered s.proxy.kq fd' := fun _ _ => rfl
  exact slots_setRef s hother

/-- The common end of the two calls, for the kqueue and for a slot. -/
theorem slots_tail (s : NotifyProxy) {same done failed : KqFdRef} {old new : KqEvents} {changes : List KqChange}
    (hrange : (s.proxy.kqFdRefGet fd).isSome = true) (hchanges : ∀ ch ∈ changes, IsChange ch)
    {r : KqueueProxy × Bool} {t : KqSlot × Bool}
    (hr : r = if old = new then (s.proxy.setRef fd same, true)
      else if (ffKevents env fd changes s.proxy.kq).2 then
        ({ s.proxy.setRef fd done with kq := (ffKevents env fd changes s.proxy.kq).1 }, true)
      else ({ s.proxy.setRef fd failed with kq := (ffKevents env fd changes s.proxy.kq).1 }, false))
    (ht : t = if old = new then ({ kqSlots s fd with ref := same }, true)
      else if (makeChanges env changes (kqSlots s fd).filters).2 then
        ({ kqSlots s fd with ref := done, filters := (makeChanges env changes (kqSlots s fd).filters).1 }, true)
      else ({ kqSlots s fd with ref := failed, filters := (makeChanges env changes (kqSlots s fd).filters).1 }, false)) :
    kqSlots { s with proxy := r.1 } = Function.update (kqSlots s) fd t.1 ∧ r.2 = t.2 ∧ r.1.maxfd = s.proxy.maxfd := by
  obtain ⟨hself, hret, hother⟩ := ffKevents_filters (ident_lt hrange) hchanges s.proxy.kq
  change _ = (makeChanges env changes (kqSlots s fd).filters).1 at hself
  change _ = (makeChanges env changes (kqSlots s fd).filters).2 at hret
  by_cases heq : old = new
  · rw [hr, ht, if_pos heq, if_pos heq]
    exact ⟨slots_setItem s fd same, rfl, rfl⟩
  · rw [hr, ht, if_neg heq, if_neg heq, ← hret, ← hself]
    cases (ffKevents env fd changes s.proxy.kq).2 with
    | true => exact ⟨slots_setRef s hother, rfl, rfl⟩
    | false => exact ⟨slots_setRef s hother, rfl, rfl⟩

/-- A call on a kqueue with a record is one on its slot. -/
theorem slots_ctrlAdd (hrange : (s.proxy.kqFdRefGet fd).isSome = true) (events : KqEvents) :
    kqSlots { s with proxy := (s.proxy.kqueueCtrlAdd env fd events).1 } =
        Function.update (kqSlots s) fd ((kqSlots s fd).ctrlAdd env events).1 ∧
      (s.proxy.kqueueCtrlAdd env fd events).2 = ((kqSlots s fd).ctrlAdd env events).2 ∧
      (s.proxy.kqueueCtrlAdd env fd events).1.maxfd = s.proxy.maxfd := by
  obtain ⟨ref, href⟩ := Option.isSome_iff_exists.mp hrange
  obtain rfl := kqFdRefGet_some href
  refine slots_tail s hrange (rewrites_isChange (s.proxy.kqrefs fd).events events) ?_ rfl
  simp only [KqueueProxy.kqueueCtrlAdd, href]
  rfl

theorem slots_ctrlDel (hrange : (s.proxy.kqFdRefGet fd).isSome = true) (events : KqEvents) :
    kqSlots { s with proxy := (s.proxy.kqueueCtrlDelRef env fd events false).1 } =
        Function.update (kqSlots s) fd ((kqSlots s fd).ctrlDel env events).1 ∧
      (s.proxy.kqueueCtrlDelRef env fd events false).2 = ((kqSlots s fd).ctrlDel env events).2 ∧
      (s.proxy.kqueueCtrlDelRef env fd events false).1.maxfd = s.proxy.maxfd := by
  obtain ⟨ref, href⟩ := Option.isSome_iff_exists.mp hrange
  obtain rfl := kqFdRefGet_some href
  have hchanges := rewrites_isChange (s.proxy.kqrefs fd).events ((s.proxy.kqrefs fd).events \ events)
  refine slots_tail s hrange hchanges ?_ rfl
  simp only [KqueueProxy.kqueueCtrlDelRef, href]
  rfl

theorem ctrlAdd_obj (slot : KqSlot) (env : KqEnv) (events : KqEvents) : (slot.ctrlAdd env events).1.obj = slot.obj := by
  unfold KqSlot.ctrlAdd
  dsimp only
  split
  · rfl
  · split <;> rfl

theorem ctrlDel_obj (slot : KqSlot) (env : KqEnv) (events : KqEvents) : (slot.ctrlDel env events).1.obj = slot.obj := by
  unfold KqSlot.ctrlDel
  dsimp only
  split
  · rfl
  · split <;> rfl

/-- The objects and the number of records are the same. -/
structure SameObjs (s s' : NotifyProxy) : Prop where
  fd : s'.fd = s.fd
  events : s'.events = s.events
  maxfd : s'.proxy.maxfd = s.proxy.maxfd

theorem SameObjs.refl (s : NotifyProxy) : SameObjs s s := ⟨rfl, rfl, rfl⟩

theorem SameObjs.trans {s' s'' : NotifyProxy} (h : SameObjs s s') (h' : SameObjs s' s'') : SameObjs s s'' :=
  ⟨h'.fd.trans h.fd, h'.events.trans h.events, h'.maxfd.trans h.maxfd⟩

theorem SameObjs.inRange {s' : NotifyProxy} (h : SameObjs s s') (obj : ℕ) : objInRange s' obj = objInRange s obj := by
  unfold objInRange KqueueProxy.kqFdRefGet
  rw [h.fd, h.maxfd]
  split <;> rfl

/-- What both calls do with their object: it is set, and set back when the change fails. -/
def notified (s : NotifyProxy) (fd : BitVec 32) (obj : Option ℕ) (ctl : KqueueProxy × Bool) : NotifyProxy × ℤ :=
  if ctl.2 then (({ s with proxy := ctl.1 } : NotifyProxy).setNotifyObj fd obj, 0)
  else (({ s with proxy := ctl.1 } : NotifyProxy).setNotifyObj fd (s.kqobj fd), -2)

/-- A call that has set the object of its record, on the slots. -/
theorem slots_notify {p : KqueueProxy} {after : KqSlot}
    (hslots : kqSlots { s with proxy := p } = Function.update (kqSlots s) fd after) (obj : Option ℕ) :
    kqSlots (({ s with proxy := p } : NotifyProxy).setNotifyObj fd obj) =
      Function.update (kqSlots s) fd { after with obj := obj } := by
  rw [slots_setNotifyObj, hslots, Function.update_self, Function.update_idem]

/-- The object on the slot of its descriptor. -/
theorem slots_notified {ctl : KqueueProxy × Bool} {slotCtl : KqSlot × Bool}
    (hslots : kqSlots { s with proxy := ctl.1 } = Function.update (kqSlots s) fd slotCtl.1) (hret : ctl.2 = slotCtl.2)
    (hmax : ctl.1.maxfd = s.proxy.maxfd) (hobj : slotCtl.1.obj = s.kqobj fd) (obj : Option ℕ) :
    kqSlots (notified s fd obj ctl).1 = Function.update (kqSlots s) fd
        (if slotCtl.2 then ({ slotCtl.1 with obj := obj }, true) else (slotCtl.1, false)).1 ∧
      (!decide ((notified s fd obj ctl).2 < 0)) =
        (if slotCtl.2 then (({ slotCtl.1 with obj := obj } : KqSlot), true) else (slotCtl.1, false)).2 ∧
      SameObjs s (notified s fd obj ctl).1 := by
  unfold notified
  rw [← hret]
  cases ctl.2 with
  | true => exact ⟨slots_notify hslots obj, rfl, rfl, rfl, hmax⟩
  | false =>
    refine ⟨(slots_notify hslots (s.kqobj fd)).trans ?_, rfl, rfl, rfl, hmax⟩
    rw [← hobj]
    rfl

/-- A registration, where the descriptor has no other object. -/
theorem kqueueCtlAdd_eq {obj : ℕ} (hfree : ¬ (s.kqobj (s.fd obj) ≠ none ∧ s.kqobj (s.fd obj) ≠ some obj)) :
    s.kqueueCtlAdd env obj =
      notified s (s.fd obj) (some obj) (s.proxy.kqueueCtrlAdd env (s.fd obj) (s.events obj)) := by
  unfold NotifyProxy.kqueueCtlAdd notified
  dsimp only
  rw [ite_cond_eq_false _ _ (eq_false hfree)]
  have hproxy : (s.setNotifyObj (s.fd obj) (some obj)).proxy = s.proxy := rfl
  rw [hproxy]
  refine ite_congr rfl (fun _ => rfl) fun _ => ?_
  simp only [NotifyProxy.setNotifyObj, Function.update_idem]

theorem kqueueCtlDel_eq {obj : ℕ} (hown : ¬ s.kqobj (s.fd obj) ≠ some obj) :
    s.kqueueCtlDel env obj =
      notified s (s.fd obj) none (s.proxy.kqueueCtrlDelRef env (s.fd obj) (s.events obj) false) := by
  unfold NotifyProxy.kqueueCtlDel notified
  dsimp only
  rw [ite_cond_eq_false _ _ (eq_false hown)]
  have hproxy : (s.setNotifyObj (s.fd obj) none).proxy = s.proxy := rfl
  rw [hproxy]
  refine ite_congr rfl (fun _ => rfl) fun _ => ?_
  simp only [NotifyProxy.setNotifyObj, Function.update_idem]

/-- The registration of an object is one on the slot of its descriptor. -/
theorem slots_kqueueAddObj (s : NotifyProxy) (env : KqEnv) (obj : ℕ) :
    kqSlots (s.kqueueAddObj env obj).1 = Function.update (kqSlots s) (s.fd obj)
        ((kqSlots s (s.fd obj)).add (objInRange s obj) env obj (s.events obj)).1 ∧
      (s.kqueueAddObj env obj).2 = ((kqSlots s (s.fd obj)).add (objInRange s obj) env obj (s.events obj)).2 ∧
      SameObjs s (s.kqueueAddObj env obj).1 := by
  have hsame : Function.update (kqSlots s) (s.fd obj) (kqSlots s (s.fd obj)) = kqSlots s := Function.update_eq_self _ _
  unfold NotifyProxy.kqueueAddObj KqSlot.add objInRange
  cases href : s.proxy.kqFdRefGet (s.fd obj) with
  | none => exact ⟨hsame.symm, rfl, SameObjs.refl s⟩
  | some ref =>
    have hrange : (s.proxy.kqFdRefGet (s.fd obj)).isSome = true := by rw [href]; rfl
    obtain ⟨hslots, hret, hmax⟩ := @slots_ctrlAdd s (s.fd obj) env hrange (s.events obj)
    rw [Option.isSome_some, if_neg Bool.noConfusion]
    by_cases hconflict : s.kqobj (s.fd obj) ≠ none ∧ s.kqobj (s.fd obj) ≠ some obj
    · have hslot : (kqSlots s (s.fd obj)).obj ≠ none ∧ (kqSlots s (s.fd obj)).obj ≠ some obj := hconflict
      have hcall : s.kqueueCtlAdd env obj = (s, -1) := if_pos hconflict
      rw [if_pos hslot, hcall]
      exact ⟨hsame.symm, rfl, SameObjs.refl s⟩
    · have hslot : ¬ ((kqSlots s (s.fd obj)).obj ≠ none ∧ (kqSlots s (s.fd obj)).obj ≠ some obj) := hconflict
      rw [if_neg hslot, kqueueCtlAdd_eq hconflict]
      exact slots_notified hslots hret hmax (ctrlAdd_obj _ env (s.events obj)) (some obj)

theorem slots_kqueueDelObj (s : NotifyProxy) (env : KqEnv) (obj : ℕ) :
    kqSlots (s.kqueueDelObj env obj).1 = Function.update (kqSlots s) (s.fd obj)
        ((kqSlots s (s.fd obj)).del (objInRange s obj) env obj (s.events obj)).1 ∧
      (s.kqueueDelObj env obj).2 = ((kqSlots s (s.fd obj)).del (objInRange s obj) env obj (s.events obj)).2 ∧
      SameObjs s (s.kqueueDelObj env obj).1 := by
  have hsame : Function.update (kqSlots s) (s.fd obj) (kqSlots s (s.fd obj)) = kqSlots s := Function.update_eq_self _ _
  unfold NotifyProxy.kqueueDelObj KqSlot.del objInRange
  cases href : s.proxy.kqFdRefGet (s.fd obj) with
  | none => exact ⟨hsame.symm, rfl, SameObjs.refl s⟩
  | some ref =>
    have hrange : (s.proxy.kqFdRefGet (s.fd obj)).isSome = true := by rw [href]; rfl
    obtain ⟨hslots, hret, hmax⟩ := @slots_ctrlDel s (s.fd obj) env hrange (s.events obj)
    rw [Option.isSome_some, if_neg Bool.noConfusion]
    by_cases hconflict : s.kqobj (s.fd obj) ≠ some obj
    · have hslot : (kqSlots s (s.fd obj)).obj ≠ some obj := hconflict
      have hcall : s.kqueueCtlDel env obj = (s, -1) := if_pos hconflict
      rw [if_pos hslot, hcall]
      exact ⟨hsame.symm, rfl, SameObjs.refl s⟩
    · have hslot : ¬ (kqSlots s (s.fd obj)).obj ≠ some obj := hconflict
      rw [if_neg hslot, kqueueCtlDel_eq hconflict]
      exact slots_notified hslots hret hmax (ctrlDel_obj _ env (s.events obj)) none

end Slots

/-! ## The loops -/

/-- What the two loops do for an object, on the slot of its descriptor. -/
def addSlot (s : NotifyProxy) (env : ℕ → KqEnv) (obj : ℕ) (slot : KqSlot) : KqSlot × Bool :=
  slot.add (objInRange s obj) (env obj) obj (s.events obj)

def delSlot (s : NotifyProxy) (env : ℕ → KqEnv) (obj : ℕ) (slot : KqSlot) : KqSlot × Bool :=
  slot.del (objInRange s obj) (env obj) obj (s.events obj)

section Loops

variable {s s' : NotifyProxy}

theorem slots_addLoop (h : SameObjs s s') (env : ℕ → KqEnv) (objs : List ℕ) :
    kqSlots (NotifyProxy.addLoop env objs s').1 = (attempt s.fd (addSlot s env) objs (kqSlots s')).1 ∧
      (NotifyProxy.addLoop env objs s').2 = (attempt s.fd (addSlot s env) objs (kqSlots s')).2 ∧
      SameObjs s (NotifyProxy.addLoop env objs s').1 := by
  induction objs generalizing s' with
  | nil => exact ⟨rfl, rfl, h⟩
  | cons obj objs ih =>
    obtain ⟨hslots, hret, hobjs⟩ := slots_kqueueAddObj s' (env obj) obj
    rw [h.inRange, h.fd, h.events] at hslots hret
    change _ = Function.update (kqSlots s') (s.fd obj) (addSlot s env obj (kqSlots s' (s.fd obj))).1 at hslots
    change _ = (addSlot s env obj (kqSlots s' (s.fd obj))).2 at hret
    unfold NotifyProxy.addLoop attempt
    dsimp only
    rw [← hret, ← hslots]
    split
    · exact ih (h.trans hobjs)
    · exact ⟨rfl, rfl, h.trans hobjs⟩

theorem slots_rollBack (h : SameObjs s s') (env : ℕ → KqEnv) (error : ℕ) (objs : List ℕ) :
    kqSlots (NotifyProxy.rollBack env error objs s').1 = (revert s.fd (delSlot s env) error objs (kqSlots s')).1 ∧
      (NotifyProxy.rollBack env error objs s').2 = (revert s.fd (delSlot s env) error objs (kqSlots s')).2 := by
  induction objs generalizing s' with
  | nil => exact ⟨rfl, rfl⟩
  | cons obj objs ih =>
    obtain ⟨hslots, hret, hobjs⟩ := slots_kqueueDelObj s' (env obj) obj
    rw [h.inRange, h.fd, h.events] at hslots hret
    change _ = Function.update (kqSlots s') (s.fd obj) (delSlot s env obj (kqSlots s' (s.fd obj))).1 at hslots
    change _ = (delSlot s env obj (kqSlots s' (s.fd obj))).2 at hret
    unfold NotifyProxy.rollBack revert
    dsimp only
    split
    · exact ⟨rfl, rfl⟩
    · obtain ⟨hrest, hok⟩ := ih (h.trans hobjs)
      rw [← hret, ← hslots, ← hok, ← hrest]
      exact ⟨rfl, rfl⟩

end Loops

end FStack.Analysis
