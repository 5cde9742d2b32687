import FStack.Analysis.EpollKnotes

/-!
# One-shot registrations

In the kernel's epoll, a one-shot descriptor whose event has been delivered stays registered, with no
direction armed, and MOD arms it again.  Here the delivery drops one of the two knotes of the
registration: a MOD or DEL that follows fails, because it needs both, and the other knote, if it was
armed, is still armed and delivers a second event.

`oneShotRun_iff` says that this is all that goes wrong: a run behaves like one of one-shot registrations
exactly as long as every MOD, DEL and delivery meets both knotes of the descriptor, that is, as long as
no direction has been delivered since the last ADD.
-/

set_option autoImplicit false

namespace FStack.Analysis

open FStack.Prelude FStack.Model

/-- A direction of a descriptor is armed. -/
def Armed (kq : KnoteTable) (fd : BitVec 32) (f : EvFilter) : Prop :=
  ∃ kn, kq (identOf fd) f = some kn ∧ kn.disabled = false

/-- Both knotes of a descriptor are there. -/
def BothKnotes (kq : KnoteTable) (fd : BitVec 32) : Prop :=
  ∀ f, (kq (identOf fd) f).isSome = true

/-- A turn of a scan delivers an event of the descriptor. -/
def Delivers (kq : KnoteTable) (fd : BitVec 32) (r : Ready) : Prop :=
  r.ident = identOf fd ∧ (scanOne kq r).2.isSome = true

instance (kq : KnoteTable) (fd : BitVec 32) (r : Ready) : Decidable (Delivers kq fd r) :=
  inferInstanceAs (Decidable (_ ∧ _))

/-- The knotes, and how one descriptor stands: it has been added, an event of it has been delivered, an
event has been delivered since it was last armed by an ADD or MOD. -/
structure ShotState where
  kq : KnoteTable := fun _ _ => none
  added : Bool := false
  delivered : Bool := false
  fired : Bool := false

def ShotState.step (fd : BitVec 32) (st : ShotState) : EpollStep → ShotState
  | .ctl env op fd' event =>
    let res := ffEpollCtl env st.kq op fd' event
    if fd' = fd ∧ res.2 = none then
      { kq := res.1
        added := if op = .add then true else if op = .del then false else st.added
        delivered := st.delivered
        fired := false }
    else { st with kq := res.1 }
  | .report r =>
    if Delivers st.kq fd r then
      { st with kq := (scanOne st.kq r).1, delivered := true, fired := true }
    else { st with kq := (scanOne st.kq r).1 }

/-- What a step of a run has to do: a MOD after a delivery succeeds and arms the directions it asks
for, a DEL of an added descriptor succeeds, and nothing is delivered after a delivery before the next
MOD. -/
def OneShotOk (fd : BitVec 32) (st : ShotState) : EpollStep → Prop
  | .ctl env op fd' event =>
    fd' = fd → st.added = true →
      (op = .mod → st.delivered = true →
        (ffEpollCtl env st.kq op fd' event).2 = none ∧
          ∀ ev, event = some ev → ∀ f,
            Armed (ffEpollCtl env st.kq op fd' event).1 fd f ↔
              hasBit ev.events (directionBit f) = true) ∧
      (op = .del → (ffEpollCtl env st.kq op fd' event).2 = none)
  | .report r => Delivers st.kq fd r → st.fired = false

/-- A MOD or DEL of an added descriptor, and a delivery, meet both knotes. -/
def MeetsBoth (fd : BitVec 32) (st : ShotState) : EpollStep → Prop
  | .ctl _ op fd' _ => fd' = fd → st.added = true → op = .mod ∨ op = .del → BothKnotes st.kq fd
  | .report r => Delivers st.kq fd r → BothKnotes st.kq fd

/-- The calls for the descriptor are one-shot ones, and the kqueue has no other reason to refuse them:
the descriptor is open, and can be watched. -/
def OneShotStep (fd : BitVec 32) : EpollStep → Prop
  | .ctl env op fd' event =>
    fd' = fd → env.fget = none ∧ (∀ f, env.attach f = none) ∧
      (op = .add ∨ op = .mod → ∃ ev, event = some ev ∧ hasBit ev.events EPOLLONESHOT = true)
  | .report _ => True

/-! ## Which calls succeed -/

section Calls

variable {env : RegisterEnv} {kq : KnoteTable} {kev : Kevent} {op : EpollCtlOp} {fd : BitVec 32}
  {event : Option EpollEvent}

theorem kqueueRegister_valid {kq' : KnoteTable} (h : kqueueRegister env kq kev = .ok kq') :
    kev.ident.toNat < 2 ^ 31 := by
  by_contra hge
  unfold kqueueRegister at h
  split at h
  · cases h
  · rw [if_pos (by omega)] at h
    cases h

/-- Without `EV_ADD`, a change of a missing knote fails.
SOURCE: freebsd/kern/kern_event.c:1775-1780 -/
theorem kqueueRegister_missing (hkn : kq kev.ident kev.filter = none)
    (hadd : kev.flags.EV_ADD = false) : ∃ e, kqueueRegister env kq kev = .error e := by
  cases h : kqueueRegister env kq kev with
  | error e => exact ⟨e, rfl⟩
  | ok kq' =>
    obtain ⟨_, -, ⟨-, htrue, -⟩ | ⟨old, hold, -⟩ | ⟨old, hold, -⟩⟩ := kqueueRegister_ok h
    · rw [hadd] at htrue
      cases htrue
    · rw [hkn] at hold
      cases hold
    · rw [hkn] at hold
      cases hold

/-- A change of a knote that exists, or with `EV_ADD`, is accepted.
SOURCE: freebsd/kern/kern_event.c:1587-1855 -/
theorem kqueueRegister_accepts (hfget : env.fget = none) (hattach : ∀ f, env.attach f = none)
    (hvalid : kev.ident.toNat < 2 ^ 31)
    (hflags : (kev.flags.EV_ENABLE && kev.flags.EV_DISABLE) = false)
    (hthere : (kq kev.ident kev.filter).isSome = true ∨ kev.flags.EV_ADD = true) :
    ∃ kq', kqueueRegister env kq kev = .ok kq' := by
  unfold kqueueRegister
  rw [if_neg (by simp [hflags]), if_neg (by omega), hfget]
  cases hkn : kq kev.ident kev.filter with
  | none =>
    have hadd : kev.flags.EV_ADD = true := by simpa [hkn] using hthere
    simp only [hadd, if_true, hattach]
    exact ⟨_, rfl⟩
  | some kn =>
    dsimp only
    split
    · exact ⟨_, rfl⟩
    · exact ⟨_, rfl⟩

theorem epollChange_flags (op : EpollCtlOp) (fd : BitVec 32) (event : EpollEvent) (f : EvFilter) :
    ((epollChange op fd event f).flags.EV_ENABLE && (epollChange op fd event f).flags.EV_DISABLE) =
      false := by
  unfold epollChange
  split
  · rfl
  · simp [epollFlags]

theorem epollChange_add (op : EpollCtlOp) (fd : BitVec 32) (event : EpollEvent) (f : EvFilter) :
    (epollChange op fd event f).flags.EV_ADD = decide (op = .add) := by
  unfold epollChange
  split
  · rename_i h
    simp [h]
  · rfl

/-- An ADD succeeds, and so does a call that finds both knotes. -/
theorem ffEpollCtl_succeeds (hfget : env.fget = none) (hattach : ∀ f, env.attach f = none)
    (hvalid : (identOf fd).toNat < 2 ^ 31) (hevent : event = none → op = .del) (hop : op ≠ .other)
    (hthere : BothKnotes kq fd ∨ op = .add) : (ffEpollCtl env kq op fd event).2 = none := by
  have haccepts : ∀ (kq₀ : KnoteTable) f, kq₀ (identOf fd) f = kq (identOf fd) f →
      ∃ kq', kqueueRegister env kq₀ (epollChange op fd (event.getD ⟨0, 0⟩) f) = .ok kq' := by
    intro kq₀ f hsame
    refine kqueueRegister_accepts hfget hattach (by simpa using hvalid) (epollChange_flags _ _ _ _) ?_
    rw [epollChange_ident, epollChange_filter, epollChange_add, hsame]
    exact hthere.imp (fun h => h f) decide_eq_true
  obtain ⟨hbad, -⟩ | ⟨e, hread, -⟩ | ⟨kq₁, hread, ⟨e, hwrite, -⟩ | ⟨kq₂, -, heq⟩⟩ :=
    ffEpollCtl_cases env kq op fd event
  · rcases hbad with ⟨hnone, hne⟩ | hother
    · exact absurd (hevent hnone) hne
    · exact absurd hother hop
  · obtain ⟨kq', h⟩ := haccepts kq .read rfl
    rw [h] at hread
    cases hread
  · have hkeep := kqueueRegister_other hread (f := .write) (by simp)
    rw [epollChange_ident] at hkeep
    obtain ⟨kq', h⟩ := haccepts kq₁ .write hkeep
    rw [h] at hwrite
    cases hwrite
  · rw [heq]

/-- A MOD or DEL that succeeds has found both knotes. -/
theorem bothKnotes_of_ok (hok : (ffEpollCtl env kq op fd event).2 = none) (hop : op ≠ .add) :
    BothKnotes kq fd := by
  intro f
  obtain ⟨kq₀, kq₁, hsame, hreg, -⟩ := (ffEpollCtl_ok hok).2 f
  by_contra hnone
  have hmissing : kq₀ (identOf fd) f = none := by
    rw [hsame]
    simpa using hnone
  obtain ⟨e, he⟩ := @kqueueRegister_missing env kq₀ (epollChange op fd (event.getD ⟨0, 0⟩) f)
    (by simpa using hmissing) (by simp [epollChange_add, hop])
  rw [he] at hreg
  cases hreg

/-- Without knotes, a MOD or DEL changes nothing. -/
theorem ffEpollCtl_of_absent (habsent : ∀ f, kq (identOf fd) f = none) (hop : op ≠ .add) :
    (ffEpollCtl env kq op fd event).1 = kq := by
  obtain ⟨-, heq⟩ | ⟨e, -, heq⟩ | ⟨kq₁, hread, -⟩ := ffEpollCtl_cases env kq op fd event
  · rw [heq]
  · rw [heq]
  · obtain ⟨e, he⟩ := @kqueueRegister_missing env kq (epollChange op fd (event.getD ⟨0, 0⟩) .read)
      (by simpa using habsent .read) (by simp [epollChange_add, hop])
    rw [he] at hread
    cases hread

/-- The knotes after a successful ADD or MOD: enabled as the mask asks, and one-shot if they
were made so. -/
theorem ffEpollCtl_knotes {ev : EpollEvent} (hok : (ffEpollCtl env kq op fd (some ev)).2 = none)
    (hop : op ≠ .del) (f : EvFilter) :
    ∃ kn, (ffEpollCtl env kq op fd (some ev)).1 (identOf fd) f = some kn ∧
      kn.disabled = !hasBit ev.events (directionBit f) ∧
      (kn.oneshot = hasBit ev.events EPOLLONESHOT ∨
        ∃ old, kq (identOf fd) f = some old ∧ kn.oneshot = old.oneshot) := by
  obtain ⟨kq₀, kq₁, hsame, hreg, hval⟩ := (ffEpollCtl_ok hok).2 f
  rw [hval]
  obtain ⟨kn, rfl, hkn⟩ := kqueueRegister_ok hreg
  simp only [epollChange_ident, epollChange_filter, Option.getD_some, KnoteTable.set_same] at hkn ⊢
  have hflags : (epollChange op fd ev f).flags =
      epollFlags op ev.events (hasBit ev.events (directionBit f)) := by
    rw [epollChange, if_neg hop]
  obtain ⟨-, -, rfl⟩ | ⟨old, -, hdel, -⟩ | ⟨old, hold, -, rfl⟩ := hkn
  · exact ⟨_, rfl, by simp [newKnote, hflags, epollFlags], .inl (by simp [newKnote, hflags, epollFlags])⟩
  · rw [epollChange_delete, decide_eq_true_eq] at hdel
    exact absurd hdel hop
  · refine ⟨_, rfl, ?_, .inr ⟨old, by rw [← hsame, hold], rfl⟩⟩
    simp only [touchKnote, hflags, epollFlags]
    cases hasBit ev.events (directionBit f) <;> rfl

/-- After a successful DEL there are no knotes. -/
theorem ffEpollCtl_del_absent (hok : (ffEpollCtl env kq .del fd event).2 = none) (f : EvFilter) :
    (ffEpollCtl env kq .del fd event).1 (identOf fd) f = none := by
  obtain ⟨kq₀, kq₁, -, hreg, hval⟩ := (ffEpollCtl_ok hok).2 f
  rw [hval]
  obtain ⟨kn, rfl, hkn⟩ := kqueueRegister_ok hreg
  simp only [epollChange_ident, epollChange_filter, KnoteTable.set_same]
  obtain ⟨-, hadd, -⟩ | ⟨old, -, -, rfl⟩ | ⟨old, -, hdel, -⟩ := hkn
  · simp [epollChange_add] at hadd
  · rfl
  · simp [epollChange_delete] at hdel

end Calls

/-! ## Runs -/

variable {fd : BitVec 32} {st : ShotState}

/-- As long as every step meets both knotes: they are one-shot ones, they are there if the descriptor
has been added, and one of them is missing exactly if it has fired. -/
structure ShotInv (fd : BitVec 32) (st : ShotState) : Prop where
  oneshot : ∀ f kn, st.kq (identOf fd) f = some kn → kn.oneshot = true
  valid : st.added = true → (identOf fd).toNat < 2 ^ 31
  absent : st.added = false → ∀ f, st.kq (identOf fd) f = none
  fired_iff : st.added = true → (st.fired = true ↔ ¬ BothKnotes st.kq fd)
  delivered : st.fired = true → st.delivered = true

theorem ShotInv.empty (fd : BitVec 32) : ShotInv fd {} where
  oneshot _ _ h := by cases h
  valid h := by cases h
  absent _ _ := rfl
  fired_iff h := by cases h
  delivered h := by cases h

/-- The invariant is about the knotes of the descriptor only. -/
theorem ShotInv.congr (h : ShotInv fd st) {kq : KnoteTable}
    (hkq : kq (identOf fd) = st.kq (identOf fd)) : ShotInv fd { st with kq := kq } where
  oneshot f kn hkn := h.oneshot f kn (by rw [← hkq]; exact hkn)
  valid := h.valid
  absent hadded f := (congrFun hkq f).trans (h.absent hadded f)
  fired_iff hadded := by
    have hboth : BothKnotes kq fd ↔ BothKnotes st.kq fd := by
      unfold BothKnotes
      rw [hkq]
    exact (h.fired_iff hadded).trans (not_congr hboth.symm)
  delivered := h.delivered

theorem ShotInv.added_of_knote (h : ShotInv fd st) {f : EvFilter} {kn : Knote}
    (hkn : st.kq (identOf fd) f = some kn) : st.added = true := by
  by_contra hadded
  rw [h.absent (by simpa using hadded)] at hkn
  cases hkn

/-- The report of an active knote. -/
theorem ShotInv.report (h : ShotInv fd st) (r : Ready) :
    ShotInv fd (st.step fd (.report r)) := by
  unfold ShotState.step
  by_cases hdel : Delivers st.kq fd r
  · simp only [if_pos hdel]
    obtain ⟨kev, hkev⟩ := Option.isSome_iff_exists.mp hdel.2
    obtain ⟨kn, hkn, -, -, -, -, htable⟩ := scanOne_some hkev
    rw [hdel.1] at hkn htable
    rw [h.oneshot _ _ hkn, if_pos rfl] at htable
    have hadded := h.added_of_knote hkn
    refine ⟨?_, h.valid, ?_, ?_, fun _ => rfl⟩
    · intro f kn' hkn'
      exact h.oneshot f kn' (scanOne_le hkn')
    · intro hnot
      rw [hadded] at hnot
      cases hnot
    · intro _
      refine iff_of_true rfl fun hall => ?_
      have hleft : ((scanOne st.kq r).1 (identOf fd) r.filter).isSome = true := hall r.filter
      rw [htable, KnoteTable.set_same] at hleft
      cases hleft
  · simp only [if_neg hdel]
    refine h.congr ?_
    by_cases hident : r.ident = identOf fd
    · rw [scanOne_none]
      by_contra hsome
      exact hdel ⟨hident, by simpa [Option.isSome_iff_ne_none] using hsome⟩
    · cases hkev : (scanOne st.kq r).2 with
      | none => rw [scanOne_none hkev]
      | some kev =>
        obtain ⟨kn, -, -, -, -, -, htable⟩ := scanOne_some hkev
        rw [htable]
        split
        · exact KnoteTable.set_ident_ne _ (Ne.symm hident) _ _
        · rfl

/-- A control call that succeeds. -/
theorem ShotInv.ctl_ok (h : ShotInv fd st) {env : RegisterEnv} {op : EpollCtlOp}
    {event : Option EpollEvent} (hstep : OneShotStep fd (.ctl env op fd event))
    (hok : (ffEpollCtl env st.kq op fd event).2 = none) :
    ShotInv fd (st.step fd (.ctl env op fd event)) := by
  simp only [ShotState.step, hok, and_self, if_true]
  have hvalid : (identOf fd).toNat < 2 ^ 31 := by
    obtain ⟨_, _, -, hreg, -⟩ := (ffEpollCtl_ok hok).2 .read
    simpa using kqueueRegister_valid hreg
  by_cases hdel : op = .del
  · subst hdel
    have habsent := ffEpollCtl_del_absent hok
    refine ⟨?_, fun _ => hvalid, fun _ => habsent, ?_, ?_⟩
    · intro f kn hkn
      cases (habsent f).symm.trans hkn
    · intro hfalse
      simp at hfalse
    · intro hfalse
      cases hfalse
  · -- an ADD or a MOD of an added descriptor: both knotes are there and armed as the mask asks
    have hother : op ≠ .other := by
      rintro rfl
      simp [ffEpollCtl] at hok
    obtain ⟨ev, rfl, hbit⟩ := (hstep rfl).2.2 (by cases op <;> simp_all)
    have hknotes := ffEpollCtl_knotes hok hdel
    have hadded : (if op = .add then true else if op = .del then false else st.added) = true := by
      by_cases hadd : op = .add
      · simp [hadd]
      · have hboth := bothKnotes_of_ok hok hadd
        obtain ⟨kn, hkn⟩ := Option.isSome_iff_exists.mp (hboth .read)
        simpa [hadd, hdel] using h.added_of_knote hkn
    have hboth : BothKnotes (ffEpollCtl env st.kq op fd (some ev)).1 fd := by
      intro f
      obtain ⟨kn, hkn, -⟩ := hknotes f
      rw [hkn]
      rfl
    refine ⟨?_, fun _ => hvalid, ?_, ?_, ?_⟩
    · intro f kn hkn
      obtain ⟨kn', hkn', -, hshot⟩ := hknotes f
      obtain rfl := Option.some.inj (hkn.symm.trans hkn')
      rcases hshot with hshot | ⟨old, hold, hshot⟩
      · rw [hshot, hbit]
      · rw [hshot]
        exact h.oneshot f old hold
    · intro hnot
      rw [hadded] at hnot
      cases hnot
    · intro _
      exact iff_of_false (by simp) (not_not_intro hboth)
    · intro hfalse
      cases hfalse

/-- A control call that fails, of a descriptor whose knotes are both there or both not. -/
theorem ffEpollCtl_fails_unchanged (h : ShotInv fd st) {env : RegisterEnv} {op : EpollCtlOp}
    {event : Option EpollEvent} (hstep : OneShotStep fd (.ctl env op fd event))
    (hboth : MeetsBoth fd st (.ctl env op fd event))
    (hfail : (ffEpollCtl env st.kq op fd event).2 ≠ none) :
    (ffEpollCtl env st.kq op fd event).1 = st.kq := by
  obtain ⟨hfget, hattach, hevent⟩ := hstep rfl
  by_cases hother : op = .other
  · subst hother
    simp [ffEpollCtl]
  have hgiven : event = none → op = .del := by
    rintro rfl
    by_contra hdel
    obtain ⟨ev, hev, -⟩ := hevent (by cases op <;> simp_all)
    cases hev
  by_cases hadd : op = .add
  · -- it can only be a descriptor that is no number of one, and then nothing is done
    obtain ⟨-, heq⟩ | ⟨e, -, heq⟩ | ⟨kq₁, hread, -⟩ := ffEpollCtl_cases env st.kq op fd event
    · rw [heq]
    · rw [heq]
    · exact absurd (ffEpollCtl_succeeds hfget hattach (by simpa using kqueueRegister_valid hread) hgiven
        hother (.inr hadd)) hfail
  · by_cases hadded : st.added = true
    · have hthere := hboth rfl hadded (by cases op <;> simp_all)
      exact absurd (ffEpollCtl_succeeds hfget hattach (h.valid hadded) hgiven hother (.inl hthere)) hfail
    · exact ffEpollCtl_of_absent (h.absent (by simpa using hadded)) hadd

/-- Every step that meets both knotes keeps the invariant. -/
theorem ShotInv.step (h : ShotInv fd st) {s : EpollStep} (hstep : OneShotStep fd s)
    (hboth : MeetsBoth fd st s) : ShotInv fd (st.step fd s) := by
  cases s with
  | report r => exact h.report r
  | ctl env op fd' event =>
    by_cases hfd : fd' = fd
    · subst hfd
      by_cases hok : (ffEpollCtl env st.kq op fd' event).2 = none
      · exact h.ctl_ok hstep hok
      · have hsame := ffEpollCtl_fails_unchanged h hstep hboth hok
        simp only [ShotState.step, hok, and_false, if_false]
        exact h.congr (by rw [hsame])
    · simp only [ShotState.step, hfd, false_and, if_false]
      exact h.congr (ffEpollCtl_frame fun heq => hfd (identOf_injective heq.symm))

/-- A step does what it has to exactly if it meets both knotes. -/
theorem oneShotOk_iff (h : ShotInv fd st) {s : EpollStep} (hstep : OneShotStep fd s) :
    OneShotOk fd st s ↔ MeetsBoth fd st s := by
  cases s with
  | report r =>
    refine forall_congr' fun hdel => ?_
    obtain ⟨kev, hkev⟩ := Option.isSome_iff_exists.mp hdel.2
    obtain ⟨kn, hkn, -⟩ := scanOne_some hkev
    rw [hdel.1] at hkn
    have hfired := h.fired_iff (h.added_of_knote hkn)
    rw [← not_iff_not, ← hfired]
    simp
  | ctl env op fd' event =>
    refine forall_congr' fun hfd => forall_congr' fun hadded => ?_
    subst hfd
    obtain ⟨hfget, hattach, hevent⟩ := hstep rfl
    constructor
    · rintro ⟨hmod, hdel⟩ hop
      by_contra hmissing
      have hfired := (h.fired_iff hadded).mpr hmissing
      rcases hop with rfl | rfl
      · exact hmissing (bothKnotes_of_ok (hmod rfl (h.delivered hfired)).1 (by decide))
      · exact hmissing (bothKnotes_of_ok (hdel rfl) (by decide))
    · intro hthere
      constructor
      · rintro rfl -
        obtain ⟨ev, rfl, -⟩ := hevent (.inr rfl)
        have hok : (ffEpollCtl env st.kq .mod fd' (some ev)).2 = none :=
          ffEpollCtl_succeeds hfget hattach (h.valid hadded) (by simp) (by decide)
            (.inl (hthere (.inl rfl)))
        refine ⟨hok, ?_⟩
        intro ev' hev f
        obtain rfl := Option.some.inj hev
        obtain ⟨kn, hkn, hdis, -⟩ := ffEpollCtl_knotes hok (by decide) f
        unfold Armed
        rw [hkn]
        simp [hdis]
      · rintro rfl
        exact ffEpollCtl_succeeds hfget hattach (h.valid hadded) (fun _ => rfl) (by decide)
          (.inl (hthere (.inr rfl)))

/-- In a run of control calls and waits in which the calls for a descriptor are one-shot ones, every MOD
after a delivery succeeds and arms what it asks for, every DEL succeeds and nothing is delivered between a
delivery and the next MOD, exactly if every MOD, DEL and delivery meets both knotes of the descriptor.
SOURCE: lib/ff_epoll.c:91-288 -/
theorem oneShotRun_iff (fd : BitVec 32) (calls : List EpollCall)
    (hcalls : ∀ s ∈ calls.flatMap EpollCall.steps, OneShotStep fd s) :
    AllSteps (ShotState.step fd) (OneShotOk fd) {} (calls.flatMap EpollCall.steps) ↔
      AllSteps (ShotState.step fd) (MeetsBoth fd) {} (calls.flatMap EpollCall.steps) := by
  refine allSteps_iff (I := ShotInv fd) (D := OneShotStep fd) ?_ ?_ (ShotInv.empty fd) hcalls
  · intro st s hst hs hboth
    exact hst.step hs hboth
  · intro st s hst hs
    exact oneShotOk_iff hst hs

/-- A call that arms descriptor 5 as a one-shot one, for reading. -/
def armCall (op : EpollCtlOp) : EpollCall := .ctl {} op 5 (some ⟨EPOLLIN ||| EPOLLONESHOT, 1⟩)

/-- A call that finds descriptor 5 readable. -/
def readableCall : EpollCall :=
  .wait (some fun _ => ⟨0, 0⟩) 8 [{ ident := identOf 5, filter := .read, data := 1 }]

theorem armCall_oneShot (op : EpollCtlOp) : ∀ s ∈ (armCall op).steps, OneShotStep 5 s := by
  intro s hs
  obtain rfl := List.mem_singleton.mp hs
  exact fun _ => ⟨rfl, fun _ => rfl, fun _ => ⟨_, rfl, by decide⟩⟩

theorem readableCall_oneShot : ∀ s ∈ readableCall.steps, OneShotStep 5 s := by
  intro s hs
  obtain rfl := List.mem_singleton.mp hs
  trivial

/-- A descriptor that is armed again by an ADD, and not by a MOD, behaves. -/
theorem rearmedByAdd_ok :
    AllSteps (ShotState.step 5) (OneShotOk 5) {}
      ([armCall .add, readableCall, armCall .add, armCall .mod].flatMap EpollCall.steps) := by
  refine (oneShotRun_iff 5 [armCall .add, readableCall, armCall .add, armCall .mod] ?_).mpr
    ⟨?_, ?_, ?_, ?_, trivial⟩
  · simp only [List.flatMap_cons, List.flatMap_nil, List.append_nil, List.forall_mem_append]
    exact ⟨armCall_oneShot _, readableCall_oneShot, armCall_oneShot _, armCall_oneShot _⟩
  · rintro - hadded
    cases hadded
  · rintro - f
    cases f <;> rfl
  · rintro - - hop
    simp at hop
  · rintro - - - f
    cases f <;> rfl

/-- A descriptor whose event has been delivered cannot be armed again by a MOD.
SOURCE: lib/ff_epoll.c:177-206 -/
theorem rearmedByMod_fails :
    (∀ s ∈ [armCall .add, readableCall, armCall .mod].flatMap EpollCall.steps, OneShotStep 5 s) ∧
      ¬ AllSteps (ShotState.step 5) (OneShotOk 5) {}
        ([armCall .add, readableCall, armCall .mod].flatMap EpollCall.steps) := by
  constructor
  · simp only [List.flatMap_cons, List.flatMap_nil, List.append_nil, List.forall_mem_append]
    exact ⟨armCall_oneShot _, readableCall_oneShot, armCall_oneShot _⟩
  · rintro ⟨-, -, hmod, -⟩
    have hok := ((hmod rfl (by decide)).1 rfl (by decide)).1
    exact absurd hok (by decide)

end FStack.Analysis
