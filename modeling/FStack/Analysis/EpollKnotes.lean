import FStack.Model.Epoll

/-!
# The two knotes of a registration

What a control call and a scan do to the knotes of a descriptor.  A call that changes or removes a
registration goes through only if both knotes are there; where one is missing it fails, possibly after
it has dealt with the other one.
-/

set_option autoImplicit false

namespace FStack.Analysis

open FStack.Prelude FStack.Model

variable {env : RegisterEnv} {kq kq' : KnoteTable} {kev : Kevent}
variable {i : BitVec 64} {f : EvFilter} {kn : Knote} {r : Ready}

/-! ## One change -/

/-- What a change that is accepted does.
SOURCE: freebsd/kern/kern_event.c:1728-1816 -/
theorem kqueueRegister_ok (h : kqueueRegister env kq kev = .ok kq') :
    ∃ kn, kq' = kq.set kev.ident kev.filter kn ∧
      (kq kev.ident kev.filter = none ∧ kev.flags.EV_ADD = true ∧ kn = some (newKnote kev) ∨
        (∃ old, kq kev.ident kev.filter = some old ∧ kev.flags.EV_DELETE = true ∧ kn = none) ∨
        ∃ old, kq kev.ident kev.filter = some old ∧ kev.flags.EV_DELETE = false ∧
          kn = some (touchKnote kev old)) := by
  unfold kqueueRegister at h
  split at h
  · cases h
  split at h
  · cases h
  split at h
  · cases h
  split at h
  · rename_i hnone
    split at h
    · rename_i hadd
      split at h
      · cases h
      · exact ⟨_, (Except.ok.inj h).symm, .inl ⟨hnone, hadd, rfl⟩⟩
    · cases h
  · rename_i old hold
    split at h
    · rename_i hdel
      exact ⟨_, (Except.ok.inj h).symm, .inr (.inl ⟨old, hold, hdel, rfl⟩)⟩
    · rename_i hdel
      exact ⟨_, (Except.ok.inj h).symm, .inr (.inr ⟨old, hold, by simpa using hdel, rfl⟩)⟩

theorem kqueueRegister_frame (h : kqueueRegister env kq kev = .ok kq') (hi : i ≠ kev.ident) :
    kq' i = kq i := by
  obtain ⟨kn, rfl, -⟩ := kqueueRegister_ok h
  exact KnoteTable.set_ident_ne kq hi _ _

theorem kqueueRegister_other (h : kqueueRegister env kq kev = .ok kq') (hf : f ≠ kev.filter) :
    kq' kev.ident f = kq kev.ident f := by
  obtain ⟨kn, rfl, -⟩ := kqueueRegister_ok h
  exact KnoteTable.set_filter_ne kq _ _ hf _

/-- The knote that an accepted change leaves has the user data of the change. -/
theorem kqueueRegister_udata (h : kqueueRegister env kq kev = .ok kq')
    (hdel : kev.flags.EV_DELETE = false) :
    ∃ kn, kq' kev.ident kev.filter = some kn ∧ kn.udata = kev.udata := by
  obtain ⟨kn, rfl, ⟨-, -, rfl⟩ | ⟨old, -, htrue, -⟩ | ⟨old, -, -, rfl⟩⟩ := kqueueRegister_ok h
  · exact ⟨_, KnoteTable.set_same _ _ _ _, rfl⟩
  · rw [hdel] at htrue
    cases htrue
  · exact ⟨_, KnoteTable.set_same _ _ _ _, rfl⟩

/-- A change that only deletes leaves no knote that was not there. -/
theorem kqueueRegister_delete_le (h : kqueueRegister env kq kev = .ok kq')
    (hadd : kev.flags.EV_ADD = false) (hdel : kev.flags.EV_DELETE = true) (hkn : kq' i f = some kn) :
    kq i f = some kn := by
  obtain ⟨_, rfl, ⟨-, htrue, -⟩ | ⟨old, -, -, rfl⟩ | ⟨old, -, hfalse, -⟩⟩ := kqueueRegister_ok h
  · rw [hadd] at htrue
    cases htrue
  · unfold KnoteTable.set at hkn
    split at hkn
    · cases hkn
    · exact hkn
  · rw [hdel] at hfalse
    cases hfalse

/-! ## A control call -/

variable {op : EpollCtlOp} {fd : BitVec 32} {event : Option EpollEvent}

theorem setWidth_identOf (fd : BitVec 32) : (identOf fd).setWidth 32 = fd := by
  apply BitVec.eq_of_getLsbD_eq
  intro i hi
  have hwide : i < 64 := by omega
  simp only [identOf, BitVec.getLsbD_setWidth, BitVec.getLsbD_signExtend, hi, hwide, decide_true,
    Bool.true_and, if_true]

theorem identOf_injective : Function.Injective identOf := by
  intro a b h
  rw [← setWidth_identOf a, h, setWidth_identOf]

/-- A list of two changes stops at the first that fails. -/
theorem kqueueChanges_pair (env : RegisterEnv) (kq : KnoteTable) (r w : Kevent) :
    (∃ e, kqueueRegister env kq r = .error e ∧ kqueueChanges env kq [r, w] = (kq, some e)) ∨
      ∃ kq₁, kqueueRegister env kq r = .ok kq₁ ∧
        ((∃ e, kqueueRegister env kq₁ w = .error e ∧ kqueueChanges env kq [r, w] = (kq₁, some e)) ∨
          ∃ kq₂, kqueueRegister env kq₁ w = .ok kq₂ ∧ kqueueChanges env kq [r, w] = (kq₂, none)) := by
  cases hr : kqueueRegister env kq r with
  | error e => exact .inl ⟨e, rfl, by simp [kqueueChanges, hr]⟩
  | ok kq₁ =>
    refine .inr ⟨kq₁, rfl, ?_⟩
    cases hw : kqueueRegister env kq₁ w with
    | error e => exact .inl ⟨e, rfl, by simp [kqueueChanges, hr, hw]⟩
    | ok kq₂ => exact .inr ⟨kq₂, rfl, by simp [kqueueChanges, hr, hw]⟩

@[simp] theorem epollChange_ident (op : EpollCtlOp) (fd : BitVec 32) (event : EpollEvent)
    (f : EvFilter) : (epollChange op fd event f).ident = identOf fd := by
  unfold epollChange
  split <;> rfl

@[simp] theorem epollChange_filter (op : EpollCtlOp) (fd : BitVec 32) (event : EpollEvent)
    (f : EvFilter) : (epollChange op fd event f).filter = f := by
  unfold epollChange
  split <;> rfl

theorem epollChange_delete (op : EpollCtlOp) (fd : BitVec 32) (event : EpollEvent) (f : EvFilter) :
    (epollChange op fd event f).flags.EV_DELETE = decide (op = .del) := by
  unfold epollChange
  split <;> simp_all [epollFlags]

theorem epollChange_udata (hop : op ≠ .del) (fd : BitVec 32) (event : EpollEvent) (f : EvFilter) :
    (epollChange op fd event f).udata = event.data := by
  rw [epollChange, if_neg hop]

/-- A control call is refused, or makes its changes for the two directions one after the
other, up to the first that fails.
SOURCE: lib/ff_epoll.c:91-207 -/
theorem ffEpollCtl_cases (env : RegisterEnv) (kq : KnoteTable) (op : EpollCtlOp) (fd : BitVec 32)
    (event : Option EpollEvent) :
    ((event = none ∧ op ≠ .del ∨ op = .other) ∧ ffEpollCtl env kq op fd event = (kq, some .EINVAL)) ∨
      (∃ e, kqueueRegister env kq (epollChange op fd (event.getD ⟨0, 0⟩) .read) = .error e ∧
        ffEpollCtl env kq op fd event = (kq, some e)) ∨
      ∃ kq₁, kqueueRegister env kq (epollChange op fd (event.getD ⟨0, 0⟩) .read) = .ok kq₁ ∧
        ((∃ e, kqueueRegister env kq₁ (epollChange op fd (event.getD ⟨0, 0⟩) .write) = .error e ∧
            ffEpollCtl env kq op fd event = (kq₁, some e)) ∨
          ∃ kq₂, kqueueRegister env kq₁ (epollChange op fd (event.getD ⟨0, 0⟩) .write) = .ok kq₂ ∧
            ffEpollCtl env kq op fd event = (kq₂, none)) := by
  unfold ffEpollCtl
  split
  · rename_i hbad
    exact .inl ⟨by simpa using hbad, rfl⟩
  · exact .inr (kqueueChanges_pair env kq _ _)

/-- The knotes of other descriptors are left alone. -/
theorem ffEpollCtl_frame (hi : i ≠ identOf fd) :
    (ffEpollCtl env kq op fd event).1 i = kq i := by
  obtain ⟨-, heq⟩ | ⟨e, -, heq⟩ | ⟨kq₁, hread, ⟨e, -, heq⟩ | ⟨kq₂, hwrite, heq⟩⟩ :=
    ffEpollCtl_cases env kq op fd event
  · rw [heq]
  · rw [heq]
  · rw [heq]
    exact kqueueRegister_frame hread (by simpa using hi)
  · rw [heq]
    exact (kqueueRegister_frame hwrite (by simpa using hi)).trans
      (kqueueRegister_frame hread (by simpa using hi))

/-- A call that succeeds has made the change of each direction, to the knote that was there
before the call. -/
theorem ffEpollCtl_ok (hok : (ffEpollCtl env kq op fd event).2 = none) :
    (event = none → op = .del) ∧
    ∀ f, ∃ kq₀ kq₁, kq₀ (identOf fd) f = kq (identOf fd) f ∧
      kqueueRegister env kq₀ (epollChange op fd (event.getD ⟨0, 0⟩) f) = .ok kq₁ ∧
      (ffEpollCtl env kq op fd event).1 (identOf fd) f = kq₁ (identOf fd) f := by
  obtain ⟨-, heq⟩ | ⟨e, -, heq⟩ | ⟨kq₁, hread, ⟨e, -, heq⟩ | ⟨kq₂, hwrite, heq⟩⟩ :=
    ffEpollCtl_cases env kq op fd event
  · rw [heq] at hok
    cases hok
  · rw [heq] at hok
    cases hok
  · rw [heq] at hok
    cases hok
  · constructor
    · intro hnone
      by_contra hop
      subst hnone
      rw [ffEpollCtl, if_pos (.inl ⟨rfl, hop⟩)] at heq
      cases heq
    · rw [heq]
      intro f
      cases f with
      | read =>
        refine ⟨kq, kq₁, rfl, hread, ?_⟩
        have hkeep := kqueueRegister_other hwrite (f := .read) (by simp)
        rwa [epollChange_ident] at hkeep
      | write =>
        refine ⟨kq₁, kq₂, ?_, hwrite, rfl⟩
        have hkeep := kqueueRegister_other hread (f := .write) (by simp)
        rwa [epollChange_ident] at hkeep

/-! ## A scan -/

/-- A knote that a turn of the scan leaves was there before.
SOURCE: freebsd/kern/kern_event.c:2101-2192 -/
theorem scanOne_le (h : (scanOne kq r).1 i f = some kn) : kq i f = some kn := by
  unfold scanOne at h
  split at h
  · exact h
  split at h
  · exact h
  dsimp only at h
  split at h
  · unfold KnoteTable.set at h
    split at h
    · cases h
    · exact h
  · exact h

/-- What is reported is an enabled knote.
SOURCE: freebsd/kern/kern_event.c:2101-2192 -/
theorem scanOne_some {kev : Kevent} (h : (scanOne kq r).2 = some kev) :
    ∃ kn, kq r.ident r.filter = some kn ∧ kn.disabled = false ∧ kev.udata = kn.udata ∧
      kev.ident = r.ident ∧ kev.filter = r.filter ∧
      (scanOne kq r).1 = if kn.oneshot then kq.set r.ident r.filter none else kq := by
  unfold scanOne at h ⊢
  split at h
  · cases h
  rename_i kn hkn
  split at h
  · cases h
  rename_i hdis
  obtain rfl := Option.some.inj h
  rw [hkn]
  simp only [hdis, if_false, Bool.false_eq_true]
  exact ⟨kn, rfl, by simpa using hdis, rfl, trivial, trivial, rfl⟩

theorem scanOne_none (h : (scanOne kq r).2 = none) : (scanOne kq r).1 = kq := by
  unfold scanOne at h ⊢
  split
  · rfl
  split
  · rfl
  rename_i kn hkn hdis
  simp [hkn, hdis] at h

/-- Every event of a scan is one of a knote that was there at its start, with its data. -/
theorem kqueueScan_mem {ready : List Ready} {kev : Kevent} (h : kev ∈ (kqueueScan kq ready).2) :
    ∃ kn, kq kev.ident kev.filter = some kn ∧ kev.udata = kn.udata := by
  induction ready generalizing kq with
  | nil => cases h
  | cons r rest ih =>
    simp only [kqueueScan, List.mem_append, Option.mem_toList] at h
    rcases h with h | h
    · obtain ⟨kn, hkn, -, hudata, hident, hfilter, -⟩ := scanOne_some h
      exact ⟨kn, by rw [hident, hfilter]; exact hkn, hudata⟩
    · obtain ⟨kn, hkn, hudata⟩ := ih h
      exact ⟨kn, scanOne_le hkn, hudata⟩

theorem kqueueScan_le {ready : List Ready} (h : (kqueueScan kq ready).1 i f = some kn) :
    kq i f = some kn := by
  induction ready generalizing kq with
  | nil => exact h
  | cons r rest ih => exact scanOne_le (ih h)

end FStack.Analysis
