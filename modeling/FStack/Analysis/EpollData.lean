import FStack.Analysis.EpollKnotes

/-!
# The user data of an epoll registration

The data of a registration is stored in both its knotes, as a pointer, and comes back with every event.
A null pointer is no data: `ff_event_to_epoll` then stores the descriptor instead.

A control call that fails after it has changed the first knote leaves the two with different data, and
events of its descriptor carry data of a call that failed.  The state therefore remembers for each
descriptor whether such a call has come since the last one that succeeded (`torn`).
-/

set_option autoImplicit false

namespace FStack.Analysis

open FStack.Prelude FStack.Model

/-- An ADD or MOD fails after it has changed a knote. -/
def FailsHalfway (env : RegisterEnv) (kq : KnoteTable) (op : EpollCtlOp) (fd : BitVec 32)
    (event : Option EpollEvent) : Prop :=
  (ffEpollCtl env kq op fd event).2 ≠ none ∧ (ffEpollCtl env kq op fd event).1 ≠ kq

/-- The knotes, for each descriptor the data of its last successful ADD or MOD, and whether one has
failed halfway since then. -/
structure DataState where
  kq : KnoteTable := fun _ _ => none
  last : BitVec 32 → Option (BitVec 64) := fun _ => none
  torn : BitVec 32 → Prop := fun _ => False

def DataState.call (st : DataState) (c : EpollCall) : DataState :=
  { kq := epollCall st.kq c
    last :=
      match c with
      | .ctl env op fd event =>
        if (ffEpollCtl env st.kq op fd event).2 = none ∧ op ≠ .del then
          Function.update st.last fd (event.map EpollEvent.data)
        else st.last
      | .wait _ _ _ => st.last
    torn :=
      match c with
      | .ctl env op fd event =>
        if op = .del then st.torn
        else
          Function.update st.torn fd (FailsHalfway env st.kq op fd event ∨
            (ffEpollCtl env st.kq op fd event).2 ≠ none ∧ st.torn fd)
      | .wait _ _ _ => st.torn }

/-- A call reports an event for a descriptor with this data, in an element of the caller's array that
held other data. -/
def ReportsData (st : DataState) (fd : BitVec 32) (held data : BitVec 64) : EpollCall → Prop
  | .ctl _ _ _ _ => False
  | .wait events maxevents ready =>
    ∃ slots out i p, events = some slots ∧ (ffEpollWait st.kq events maxevents ready).2 = .ok out ∧
      out[i]? = some p ∧ p.1.ident = identOf fd ∧ held = (slots i).data ∧ data = p.2.data

/-- Every event carries the data of the last successful ADD or MOD of its descriptor. -/
def CarriesExactly (st : DataState) (c : EpollCall) : Prop :=
  ∀ fd held data, ReportsData st fd held data c → st.last fd = some data

/-- Data comes back as it was, if there is any; else `data.fd` is the descriptor, and the upper half of
the union is what it was. -/
def UnchangedOrFd (fd : BitVec 32) (d held data : BitVec 64) : Prop :=
  (d ≠ 0 → data = d) ∧
    (d = 0 → data.setWidth 32 = fd ∧ data.extractLsb' 32 32 = held.extractLsb' 32 32)

/-- Every event of a descriptor for which no ADD or MOD has failed halfway carries the data of the last
successful one. -/
def Carries (st : DataState) (c : EpollCall) : Prop :=
  ∀ fd held data, ReportsData st fd held data c → ¬ st.torn fd →
    ∃ d, st.last fd = some d ∧ UnchangedOrFd fd d held data

/-- The knotes of such a descriptor have the data of the last successful ADD or MOD. -/
def KnotesUpToDate (st : DataState) : Prop :=
  ∀ fd f kn, ¬ st.torn fd → st.kq (identOf fd) f = some kn → st.last fd = some kn.udata

theorem setWidth_setDataFd (data : BitVec 64) (fd : BitVec 32) :
    (setDataFd data fd).setWidth 32 = fd := by
  apply BitVec.eq_of_getLsbD_eq
  intro i hi
  simp only [setDataFd, BitVec.getLsbD_setWidth, BitVec.getLsbD_append, hi, decide_true,
    Bool.true_and, if_true]

theorem extractLsb'_setDataFd (data : BitVec 64) (fd : BitVec 32) :
    (setDataFd data fd).extractLsb' 32 32 = data.extractLsb' 32 32 := by
  apply BitVec.eq_of_getLsbD_eq
  intro i hi
  simp only [setDataFd, BitVec.getLsbD_extractLsb', BitVec.getLsbD_append, hi, decide_true,
    Bool.true_and, Nat.add_sub_cancel_left, if_neg (by omega : ¬ 32 + i < 32)]

/-- INTERNAL: one event.
SOURCE: lib/ff_epoll.c:242-246 -/
theorem unchangedOrFd_ffEventToEpoll {fd : BitVec 32} {kev : Kevent} (slot : EpollEvent)
    (h : kev.ident = identOf fd) :
    UnchangedOrFd fd kev.udata slot.data (ffEventToEpoll slot kev).data := by
  unfold UnchangedOrFd ffEventToEpoll
  constructor
  · intro hne
    exact if_pos hne
  · intro hzero
    simp only [hzero, ne_eq, not_true_eq_false, if_false]
    rw [setWidth_setDataFd, extractLsb'_setDataFd, h, setWidth_identOf]
    exact ⟨rfl, rfl⟩

variable {env : RegisterEnv} {kq : KnoteTable} {op : EpollCtlOp} {fd : BitVec 32}
  {event : Option EpollEvent}

/-- INTERNAL: after a successful ADD or MOD both knotes have its data.
SOURCE: lib/ff_epoll.c:196-206 -/
theorem ffEpollCtl_udata (hok : (ffEpollCtl env kq op fd event).2 = none) (hop : op ≠ .del) :
    ∃ ev, event = some ev ∧ ∀ f, ∃ kn,
      (ffEpollCtl env kq op fd event).1 (identOf fd) f = some kn ∧ kn.udata = ev.data := by
  obtain ⟨hevent, hchanges⟩ := ffEpollCtl_ok hok
  cases event with
  | none => exact absurd (hevent rfl) hop
  | some ev =>
    refine ⟨ev, rfl, fun f => ?_⟩
    obtain ⟨kq₀, kq₁, -, hreg, hval⟩ := hchanges f
    obtain ⟨kn, hkn, hudata⟩ := kqueueRegister_udata hreg (by simp [epollChange_delete, hop])
    rw [epollChange_ident, epollChange_filter] at hkn
    exact ⟨kn, hval.trans hkn, hudata.trans (epollChange_udata hop fd ev f)⟩

/-- INTERNAL: a DEL, whether it succeeds or not, leaves no knote that was not there.
SOURCE: lib/ff_epoll.c:143-156 -/
theorem ffEpollCtl_del_le {i : BitVec 64} {f : EvFilter} {kn : Knote}
    (h : (ffEpollCtl env kq .del fd event).1 i f = some kn) : kq i f = some kn := by
  obtain ⟨-, heq⟩ | ⟨e, -, heq⟩ | ⟨kq₁, hread, ⟨e, -, heq⟩ | ⟨kq₂, hwrite, heq⟩⟩ :=
    ffEpollCtl_cases env kq .del fd event
  · rw [heq] at h
    exact h
  · rw [heq] at h
    exact h
  · rw [heq] at h
    exact kqueueRegister_delete_le hread rfl rfl h
  · rw [heq] at h
    exact kqueueRegister_delete_le hread rfl rfl (kqueueRegister_delete_le hwrite rfl rfl h)

/-- INTERNAL: a wait leaves knotes that were there, and reports such knotes only.
SOURCE: lib/ff_epoll.c:250-288 -/
theorem ffEpollWait_cases (kq : KnoteTable) (events : Option (ℕ → EpollEvent)) (maxevents : ℤ)
    (ready : List Ready) :
    (∃ e, ffEpollWait kq events maxevents ready = (kq, .error e)) ∨
      ∃ (slots : ℕ → EpollEvent) (taken : List Ready), events = some slots ∧
        ffEpollWait kq events maxevents ready = ((kqueueScan kq taken).1,
          .ok ((kqueueScan kq taken).2.mapIdx fun i kev => (kev, ffEventToEpoll (slots i) kev))) := by
  unfold ffEpollWait
  cases events with
  | none => exact .inl ⟨_, rfl⟩
  | some slots =>
    dsimp only
    split
    · exact .inl ⟨_, rfl⟩
    · exact .inr ⟨slots, ready.take maxevents.toNat, rfl, rfl⟩

/-- INTERNAL: a control call keeps the knotes of its own descriptor up to date. -/
theorem KnotesUpToDate.ctl_self {st : DataState} (h : KnotesUpToDate st) (hdel : op ≠ .del)
    (hwhole : ¬ (FailsHalfway env st.kq op fd event ∨
      (ffEpollCtl env st.kq op fd event).2 ≠ none ∧ st.torn fd))
    {f : EvFilter} {kn : Knote} (hkn : (ffEpollCtl env st.kq op fd event).1 (identOf fd) f = some kn) :
    (st.call (.ctl env op fd event)).last fd = some kn.udata := by
  dsimp only [DataState.call]
  by_cases hok : (ffEpollCtl env st.kq op fd event).2 = none
  · rw [if_pos ⟨hok, hdel⟩, Function.update_self]
    obtain ⟨ev, rfl, hboth⟩ := ffEpollCtl_udata hok hdel
    obtain ⟨kn', hkn', hudata⟩ := hboth f
    obtain rfl := Option.some.inj (hkn.symm.trans hkn')
    exact congrArg some hudata.symm
  · -- the call has changed nothing
    obtain ⟨hhalf, htorn⟩ := not_or.mp hwhole
    have hsame : (ffEpollCtl env st.kq op fd event).1 = st.kq := by
      by_contra hne
      exact hhalf ⟨hok, hne⟩
    rw [if_neg fun hand => hok hand.1]
    rw [hsame] at hkn
    exact h fd f kn (fun ht => htorn ⟨hok, ht⟩) hkn

/-- INTERNAL: every call keeps the knotes up to date. -/
theorem KnotesUpToDate.call {st : DataState} (h : KnotesUpToDate st) (c : EpollCall) :
    KnotesUpToDate (st.call c) := by
  intro fd' f kn htorn hkn
  cases c with
  | wait events maxevents ready =>
    refine h fd' f kn htorn ?_
    simp only [DataState.call, epollCall] at hkn
    obtain ⟨e, heq⟩ | ⟨slots, taken, -, heq⟩ := ffEpollWait_cases st.kq events maxevents ready
    · rwa [heq] at hkn
    · rw [heq] at hkn
      exact kqueueScan_le hkn
  | ctl env op fd event =>
    by_cases hdel : op = .del
    · subst hdel
      simp only [DataState.call, epollCall, if_true] at htorn hkn ⊢
      rw [if_neg (by simp)]
      exact h fd' f kn htorn (ffEpollCtl_del_le hkn)
    · dsimp only [DataState.call, epollCall] at htorn hkn
      rw [if_neg hdel] at htorn
      by_cases hfd : fd' = fd
      · subst hfd
        rw [Function.update_self] at htorn
        exact h.ctl_self hdel htorn hkn
      · rw [Function.update_of_ne hfd] at htorn
        rw [ffEpollCtl_frame (fun heq => hfd (identOf_injective heq))] at hkn
        have hlast : (st.call (.ctl env op fd event)).last fd' = st.last fd' := by
          dsimp only [DataState.call]
          split
          · exact Function.update_of_ne hfd _ _
          · rfl
        exact hlast.trans (h fd' f kn htorn hkn)

/-- INTERNAL: every event that a call reports comes from a knote. -/
theorem carries_of_knotesUpToDate {st : DataState} (h : KnotesUpToDate st) (c : EpollCall) :
    Carries st c := by
  cases c with
  | ctl => exact fun _ _ _ hreports => hreports.elim
  | wait events maxevents ready =>
    rintro fd held data ⟨slots, out, i, p, hslots, hout, hp, hfd, rfl, rfl⟩ htorn
    obtain ⟨e, heq⟩ | ⟨slots', taken, hslots', heq⟩ := ffEpollWait_cases st.kq events maxevents ready
    · rw [heq] at hout
      cases hout
    · obtain rfl : slots = slots' := Option.some.inj (hslots.symm.trans hslots')
      rw [heq] at hout
      obtain rfl := Except.ok.inj hout
      rw [List.getElem?_mapIdx, Option.map_eq_some_iff] at hp
      obtain ⟨kev, hkev, rfl⟩ := hp
      obtain ⟨kn, hkn, hudata⟩ := kqueueScan_mem (List.mem_of_getElem? hkev)
      refine ⟨kn.udata, h fd _ kn htorn (hfd ▸ hkn), ?_⟩
      rw [← hudata]
      exact unchangedOrFd_ffEventToEpoll (slots i) hfd

/-- In every run of control calls and waits, each event that is reported for a descriptor carries the
data of its last successful ADD or MOD, or the descriptor where that data is zero, unless an ADD or MOD
of the descriptor has failed halfway since then.
SOURCE: lib/ff_epoll.c:91-288 -/
theorem epollRun_carries (calls : List EpollCall) : AllSteps DataState.call Carries {} calls := by
  refine AllSteps.of_invariant (I := KnotesUpToDate) (fun st c hst => hst.call c)
    (fun st c hst => carries_of_knotesUpToDate hst c) ?_ calls
  intro fd f kn _ hkn
  cases hkn

/-- The caller's array, empty. -/
def emptyArray : ℕ → EpollEvent := fun _ => ⟨0, 0⟩

/-- Descriptor 5 is added without data, and is readable. -/
def addAndRead : List EpollCall :=
  [.ctl {} .add 5 (some ⟨EPOLLIN, 0⟩),
    .wait (some emptyArray) 8 [{ ident := identOf 5, filter := .read, data := 1 }]]

/-- Descriptor 5 is added as a one-shot one with data 1 and is writable; it is then to be changed to
data 2, which fails for the knote that is gone, and is readable. -/
def failedChange : List EpollCall :=
  [.ctl {} .add 5 (some ⟨EPOLLIN ||| EPOLLOUT ||| EPOLLONESHOT, 1⟩),
    .wait (some emptyArray) 8 [{ ident := identOf 5, filter := .write }],
    .ctl {} .mod 5 (some ⟨EPOLLIN ||| EPOLLOUT ||| EPOLLONESHOT, 2⟩),
    .wait (some emptyArray) 8 [{ ident := identOf 5, filter := .read, data := 1 }]]

/-- Data that is zero comes back as the descriptor, and data of a MOD that failed comes back too.
SOURCE: lib/ff_epoll.c:196-206, 242-246 -/
theorem zeroData_replaced :
    ¬ AllSteps DataState.call CarriesExactly {} addAndRead ∧
      ¬ AllSteps DataState.call CarriesExactly {} failedChange := by
  constructor
  · rintro ⟨-, hwait, -⟩
    have hlast := hwait 5 0 5 ⟨emptyArray, _, 0, _, rfl, rfl, rfl, rfl, rfl, rfl⟩
    exact absurd (Option.some.inj hlast) (by decide : (0 : BitVec 64) ≠ 5)
  · rintro ⟨-, -, -, hwait, -⟩
    have hlast := hwait 5 0 2 ⟨emptyArray, _, 0, _, rfl, rfl, rfl, rfl, rfl, rfl⟩
    exact absurd (Option.some.inj hlast) (by decide : (1 : BitVec 64) ≠ 2)

end FStack.Analysis
