import FStack.Model.SemIpc
import FStack.Prelude.Monitored

/-!
# Which events reach the call that asked for them

The posts of a semaphore are counted: one for an answer of the loop, and one for a wakeup.  A call that has taken
the last post, or none if there was none, leaves the semaphore empty, and knows from its wait alone whether there
is an answer.  A post that is left behind belongs to an answer that the call has missed, and will end the wait of
another call.
-/

set_option autoImplicit false

namespace FStack.Analysis

open FStack.Model FStack.Prelude

variable {sc : SemSc} {now : ℕ}
variable {result : ℤ} {post : Bool} {w : SemWaited}

/-- What a call has to do when it ends: it reports the answer to its request and no other events, it has waited
until its deadline if it reports none, and its changes are applied once. -/
structure FinishRight (now : ℕ) (sc : SemSc) (w : SemWaited) : Prop where
  answer : ∀ r, sc.answer = some r → sc.ret w = r ∧ (r ≠ 0 → sc.returned w = some r)
  events : ∀ r, 0 < r → sc.returned w = some r → sc.answer = some r
  deadline : sc.call.timed.isSome = true → sc.returned w = some 0 → sc.deadline ≤ now
  changes : sc.applied = if sc.call.changes = 0 then 0 else 1

/-- What a step has to do. -/
def SemRight (s : SemSys) (a : SemStep) : Prop :=
  (∀ i, ((s.step a).sc i).applied ≤ 1) ∧
  match a with
  | .finish i => ∀ w, (s.sc i).pc = .woken w → FinishRight s.now (s.sc i) w
  | .reply i => (s.sc i).pc = .spins → (s.sc i).status = .FF_SC_REP →
    (s.sc i).answer = some (s.sc i).result
  | _ => True

/-- When the loop looks at a call with a deadline, there is something to report or the deadline is over; and
when a call takes the lock after its wait, no post is left in the semaphore and its changes have been handled. -/
def SemSafe (s : SemSys) : SemStep → Prop
  | .handle i result _ => (s.sc i).status = .FF_SC_REQ → (s.sc i).call.timed.isSome = true → result = 0 →
    (s.sc i).deadline ≤ s.now
  | .finish i => (s.sc i).pc ≠ .none → (s.sc i).wait_sem = 0 ∧ (s.sc i).nchanges = 0
  | _ => True

instance (s : SemSys) : ∀ a, Decidable (SemSafe s a)
  | .submit _ _ => inferInstanceAs (Decidable True)
  | .handle _ _ _ => inferInstanceAs (Decidable (_ → _))
  | .wake _ => inferInstanceAs (Decidable True)
  | .expire _ => inferInstanceAs (Decidable True)
  | .interrupt _ => inferInstanceAs (Decidable True)
  | .finish _ => inferInstanceAs (Decidable (_ → _))
  | .reply _ => inferInstanceAs (Decidable True)
  | .alarm _ => inferInstanceAs (Decidable True)
  | .tick _ => inferInstanceAs (Decidable True)

/-! ## A request and its posts -/

/-- The posts made for the request so far: that of the answer, and that of a wakeup. -/
def posts (sc : SemSc) : ℕ :=
  (if sc.status = .FF_SC_REP then 1 else 0) +
    if sc.call.timed.isNone && !sc.need_alarm_sem then 1 else 0

/-- What holds of a request that was written and is not ended: it has an answer if the status says so. -/
structure SemRequest (sc : SemSc) : Prop where
  written : sc.status ≠ .FF_SC_IDLE
  answered : sc.status = .FF_SC_REP → sc.answer = some sc.result ∧ sc.nchanges = 0
  asked : sc.status = .FF_SC_REQ → sc.answer = none
  pending : sc.nchanges = 0 ∨ sc.nchanges = sc.call.changes
  applied : sc.applied = if sc.nchanges = 0 ∧ sc.call.changes ≠ 0 then 1 else 0

/-- The same for one that waits for the semaphore. -/
structure SemWaiting (now : ℕ) (sc : SemSc) : Prop extends SemRequest sc where
  uses : sc.call.usesSem = true
  timed : sc.call.timed.isSome = true → sc.need_alarm_sem = false
  nothing : sc.status = .FF_SC_REQ → sc.result = 0
  deadline : sc.status = .FF_SC_REP → sc.call.timed.isSome = true → sc.result = 0 → sc.deadline ≤ now

/-- What holds of a context, by what its thread does. -/
def SemScSettled (now : ℕ) (sc : SemSc) : Prop :=
  match sc.pc with
  | .none => sc.status = .FF_SC_IDLE ∧ sc.wait_sem = 0 ∧ sc.need_alarm_sem = false ∧ sc.applied ≤ 1
  | .spins => SemRequest sc ∧ sc.call.usesSem = false ∧ sc.wait_sem = 0 ∧ sc.need_alarm_sem = false
  | .waits => SemWaiting now sc ∧ sc.wait_sem = posts sc
  | .woken .posted => SemWaiting now sc ∧ sc.wait_sem + 1 = posts sc
  | .woken .timedout => SemWaiting now sc ∧ sc.wait_sem = posts sc ∧ sc.deadline ≤ now
  | .woken .interrupted => SemWaiting now sc ∧ sc.wait_sem = posts sc

theorem SemRequest.applied_le (h : SemRequest sc) : sc.applied ≤ 1 := by
  rw [h.applied]
  split
  · exact le_refl _
  · exact Nat.zero_le _

theorem SemScSettled.applied_le (h : SemScSettled now sc) : sc.applied ≤ 1 := by
  unfold SemScSettled at h
  cases hpc : sc.pc with
  | none =>
    rw [hpc] at h
    exact h.2.2.2
  | spins =>
    rw [hpc] at h
    exact h.1.applied_le
  | waits =>
    rw [hpc] at h
    exact h.1.applied_le
  | woken w =>
    rw [hpc] at h
    cases w with
    | posted => exact h.1.applied_le
    | timedout => exact h.1.applied_le
    | interrupted => exact h.1.applied_le

/-! ## What the steps do to a context -/

/-- A step of the loop or a wakeup, during a wait: what it posts is accounted for. -/
structure PostsFor (now : ℕ) (sc sc' : SemSc) : Prop where
  waiting : SemWaiting now sc'
  balance : sc'.wait_sem + posts sc = sc.wait_sem + posts sc'
  pc : sc'.pc = sc.pc
  deadline : sc'.deadline = sc.deadline

/-- INTERNAL: it keeps the context settled, wherever the thread is in its wait. -/
theorem SemScSettled.posted {sc' : SemSc} (h : SemScSettled now sc)
    (hothers : sc.pc = .none ∨ sc.pc = .spins → SemScSettled now sc')
    (hposts : SemWaiting now sc → PostsFor now sc sc') : SemScSettled now sc' := by
  cases hpc : sc.pc with
  | none => exact hothers (Or.inl hpc)
  | spins => exact hothers (Or.inr hpc)
  | waits =>
    unfold SemScSettled at h ⊢
    rw [hpc] at h
    have hnext := hposts h.1
    have hbalance := hnext.balance
    rw [hnext.pc, hpc]
    have hsem := h.2
    exact ⟨hnext.waiting, by omega⟩
  | woken w =>
    unfold SemScSettled at h ⊢
    rw [hpc] at h
    cases w with
    | posted =>
      have hnext := hposts h.1
      have hbalance := hnext.balance
      rw [hnext.pc, hpc]
      have hsem := h.2
      exact ⟨hnext.waiting, by omega⟩
    | timedout =>
      have hnext := hposts h.1
      have hbalance := hnext.balance
      rw [hnext.pc, hpc]
      have hsem := h.2.1
      refine ⟨hnext.waiting, by omega, ?_⟩
      rw [hnext.deadline]
      exact h.2.2
    | interrupted =>
      have hnext := hposts h.1
      have hbalance := hnext.balance
      rw [hnext.pc, hpc]
      have hsem := h.2
      exact ⟨hnext.waiting, by omega⟩

theorem SemScSettled.submit (h : SemScSettled now sc) (call : SemCall) :
    SemScSettled now (sc.submit call now) := by
  unfold SemSc.submit
  split
  · rename_i hidle
    -- the context is idle, so that no thread has a request in it
    have hpc : sc.pc = .none := by
      unfold SemScSettled at h
      cases hpc : sc.pc with
      | none => rfl
      | spins =>
        rw [hpc] at h
        exact absurd hidle h.1.written
      | waits =>
        rw [hpc] at h
        exact absurd hidle h.1.written
      | woken w =>
        rw [hpc] at h
        cases w with
        | posted => exact absurd hidle h.1.written
        | timedout => exact absurd hidle h.1.written
        | interrupted => exact absurd hidle h.1.written
    unfold SemScSettled at h
    rw [hpc] at h
    obtain ⟨-, hsem, halarm, -⟩ := h
    have happlied : 0 = if call.changes = 0 ∧ call.changes ≠ 0 then 1 else 0 := by
      rw [if_neg (by omega)]
    cases huses : call.usesSem with
    | false =>
      simp only [Bool.false_and, Bool.false_eq_true, if_false]
      refine ⟨⟨?_, ?_, ?_, Or.inr rfl, happlied⟩, huses, hsem, halarm⟩
      · simp
      · simp
      · simp
    | true =>
      simp only [Bool.true_and, if_true]
      refine ⟨⟨⟨?_, ?_, ?_, Or.inr rfl, happlied⟩, huses, ?_, ?_, ?_⟩, ?_⟩
      · simp
      · simp
      · simp
      · intro htimed
        dsimp only at htimed ⊢
        rw [Option.isNone_eq_false_iff.mpr htimed]
        exact halarm
      · simp
      · simp
      · unfold posts
        dsimp only
        rw [hsem, halarm]
        cases call.timed with
        | none => simp
        | some t => simp
  · exact h

/-- The loop is never silent about events. -/
theorem result_of_semFlag {call : SemCall} (huses : call.usesSem = true) (hflag : call.semFlag result = false) :
    result = 0 := by
  cases call with
  | syscall => simp [SemCall.usesSem] at huses
  | epoll_wait maxevents timeout =>
    simp [SemCall.semFlag] at hflag
    exact hflag.1.2
  | kevent nchanges nevents timeout =>
    simp [SemCall.semFlag] at hflag
    exact hflag.1.2

/-- After the handler the changes are applied, and were not before if there were any left. -/
theorem SemRequest.changed (h : SemRequest sc) :
    sc.applyChanges.applied = if (0 : ℕ) = 0 ∧ sc.call.changes ≠ 0 then 1 else 0 := by
  have happlied := h.applied
  unfold SemSc.applyChanges
  dsimp only
  by_cases hn : sc.nchanges = 0
  · rw [if_pos hn, happlied, hn]
  · rcases h.pending with hzero | hall
    · exact absurd hzero hn
    · rw [if_neg (fun hboth => hn hboth.1)] at happlied
      rw [if_neg hn, happlied, if_pos ⟨rfl, by omega⟩]

/-- INTERNAL: the loop answers a request of `SYSCALL`. -/
theorem SemRequest.handle (h : SemRequest sc) (huses : sc.call.usesSem = false) (result error : ℤ)
    (post : Bool) :
    SemRequest (sc.handle result error post) ∧ (sc.handle result error post).call = sc.call ∧
      (sc.handle result error post).wait_sem = sc.wait_sem ∧
      (sc.handle result error post).need_alarm_sem = sc.need_alarm_sem ∧
      (sc.handle result error post).pc = sc.pc := by
  unfold SemSc.handle
  split
  · dsimp only
    have hcall : sc.applyChanges.call.usesSem = false := huses
    rw [hcall, if_neg (by simp)]
    refine ⟨⟨?_, ?_, ?_, Or.inl rfl, h.changed⟩, rfl, rfl, rfl, rfl⟩
    · simp
    · intro _
      exact ⟨rfl, rfl⟩
    · simp
  · exact ⟨h, rfl, rfl, rfl, rfl⟩

/-- INTERNAL: the loop looks at a request whose thread waits for the semaphore. -/
theorem SemWaiting.handle (h : SemWaiting now sc) (error : ℤ)
    (hpost : sc.status = .FF_SC_REQ → post = sc.call.semFlag result)
    (hsafe : sc.status = .FF_SC_REQ → sc.call.timed.isSome = true → result = 0 → sc.deadline ≤ now) :
    PostsFor now sc (sc.handle result error post) := by
  unfold SemSc.handle
  split
  · rename_i hreq
    dsimp only
    have hcall : sc.applyChanges.call.usesSem = true := h.uses
    rw [hcall, if_pos rfl]
    cases hp : post with
    | true =>
      rw [if_pos rfl]
      refine ⟨⟨⟨?_, ?_, ?_, Or.inl rfl, h.changed⟩, h.uses, h.timed, ?_, ?_⟩, ?_, rfl, rfl⟩
      · simp
      · intro _
        exact ⟨rfl, rfl⟩
      · simp
      · simp
      · intro _
        exact hsafe hreq
      · unfold posts
        rw [hreq]
        simp [SemSc.applyChanges]
        omega
    | false =>
      rw [if_neg (by simp)]
      have hzero := result_of_semFlag h.uses ((hpost hreq).symm.trans hp)
      refine ⟨⟨⟨h.written, ?_, h.asked, Or.inl rfl, h.changed⟩, h.uses, h.timed, ?_, ?_⟩, ?_, rfl, rfl⟩
      · intro hrep
        exact absurd (hrep.symm.trans hreq) (by simp)
      · intro _
        exact hzero
      · intro hrep
        exact absurd (hrep.symm.trans hreq) (by simp)
      · unfold posts
        rfl
  · exact ⟨h, rfl, rfl, rfl⟩

theorem SemScSettled.handle (h : SemScSettled now sc) (error : ℤ)
    (hpost : sc.status = .FF_SC_REQ ∧ sc.call.usesSem = true → post = sc.call.semFlag result)
    (hsafe : sc.status = .FF_SC_REQ → sc.call.timed.isSome = true → result = 0 → sc.deadline ≤ now) :
    SemScSettled now (sc.handle result error post) := by
  apply h.posted
  · unfold SemScSettled at h ⊢
    rintro (hpc | hpc)
    · rw [hpc] at h
      have hsame : sc.handle result error post = sc := by
        unfold SemSc.handle
        rw [if_neg (by simp [h.1])]
      rw [hsame, hpc]
      exact h
    · rw [hpc] at h
      obtain ⟨hreq, huses, hsem, halarm⟩ := h
      obtain ⟨hnext, hcall, hsem', halarm', hpc'⟩ := hreq.handle huses result error post
      rw [hpc', hpc]
      exact ⟨hnext, by rw [hcall, huses], hsem'.trans hsem, halarm'.trans halarm⟩
  · intro hw
    exact hw.handle error (fun hreq => hpost ⟨hreq, hw.uses⟩) hsafe

/-- A change of what the thread does next and of the semaphore only. -/
theorem SemWaiting.setPc (h : SemWaiting now sc) (pc : SemPc) (wait_sem : ℕ) :
    SemWaiting now { sc with pc := pc, wait_sem := wait_sem } :=
  ⟨⟨h.written, h.answered, h.asked, h.pending, h.applied⟩, h.uses, h.timed, h.nothing, h.deadline⟩

theorem SemScSettled.waits (h : SemScSettled now sc) (hpc : sc.pc = .waits) :
    SemWaiting now sc ∧ sc.wait_sem = posts sc := by
  unfold SemScSettled at h
  rw [hpc] at h
  exact h

theorem SemScSettled.wake (h : SemScSettled now sc) : SemScSettled now sc.wake := by
  unfold SemSc.wake
  split
  · rename_i hcan
    obtain ⟨hw, hsem⟩ := h.waits hcan.1
    refine ⟨hw.setPc _ _, ?_⟩
    have hposts : posts { sc with wait_sem := sc.wait_sem - 1, pc := SemPc.woken SemWaited.posted } =
        posts sc := rfl
    rw [hposts]
    dsimp only
    omega
  · exact h

theorem SemScSettled.expire (h : SemScSettled now sc) : SemScSettled now (sc.expire now) := by
  unfold SemSc.expire
  split
  · rename_i hcan
    obtain ⟨hw, hsem⟩ := h.waits hcan.1
    exact ⟨hw.setPc _ _, hsem, hcan.2.2⟩
  · exact h

theorem SemScSettled.interrupt (h : SemScSettled now sc) : SemScSettled now sc.interrupt := by
  unfold SemSc.interrupt
  split
  · rename_i hcan
    obtain ⟨hw, hsem⟩ := h.waits hcan
    exact ⟨hw.setPc _ _, hsem⟩
  · exact h

/-- INTERNAL: what a call knows that leaves no post behind: it has taken the post of an answer, or was woken
before there was one. -/
theorem SemScSettled.woken (h : SemScSettled now sc) (hpc : sc.pc = .woken w) (hsem : sc.wait_sem = 0) :
    SemWaiting now sc ∧
      ((w = .posted ∧ sc.status = .FF_SC_REP) ∨
        (sc.status = .FF_SC_REQ ∧ sc.call.timed.isNone = true ∧ w = .posted) ∨
        (sc.status = .FF_SC_REQ ∧ w = .timedout ∧ sc.deadline ≤ now) ∨
        (sc.status = .FF_SC_REQ ∧ w = .interrupted)) := by
  have hreq : SemWaiting now sc → posts sc = 0 → sc.status = .FF_SC_REQ := by
    intro hw hzero
    unfold posts at hzero
    cases hstatus : sc.status with
    | FF_SC_IDLE => exact absurd hstatus hw.written
    | FF_SC_REQ => rfl
    | FF_SC_REP => simp [hstatus] at hzero
  unfold SemScSettled at h
  rw [hpc] at h
  cases w with
  | posted =>
    refine ⟨h.1, ?_⟩
    have hposts := h.2
    unfold posts at hposts
    cases hstatus : sc.status with
    | FF_SC_IDLE => exact absurd hstatus h.1.written
    | FF_SC_REP => exact Or.inl ⟨rfl, rfl⟩
    | FF_SC_REQ =>
      rw [hsem, hstatus, if_neg (by simp)] at hposts
      refine Or.inr (Or.inl ⟨rfl, ?_, rfl⟩)
      by_contra hsome
      rw [Bool.not_eq_true] at hsome
      rw [hsome] at hposts
      simp at hposts
  | timedout =>
    refine ⟨h.1, Or.inr (Or.inr (Or.inl ⟨hreq h.1 (h.2.1.symm.trans hsem), rfl, h.2.2⟩))⟩
  | interrupted =>
    exact ⟨h.1, Or.inr (Or.inr (Or.inr ⟨hreq h.1 (h.2.symm.trans hsem), rfl⟩))⟩

theorem returned_of_ne_zero (h : sc.ret w ≠ 0) : sc.returned w = some (sc.ret w) := by
  have hretries : sc.call.retries (sc.ret w) = false := by
    unfold SemCall.retries
    split
    · simp [h]
    · rfl
  unfold SemSc.returned
  rw [hretries]
  rfl

theorem ret_of_returned {r : ℤ} (h : sc.returned w = some r) : sc.ret w = r := by
  unfold SemSc.returned at h
  split at h
  · cases h
  · exact Option.some.inj h

/-- **The end of a call** that leaves no post behind and whose changes have been handled. -/
theorem SemScSettled.finishRight (h : SemScSettled now sc) (hpc : sc.pc = .woken w) (hsem : sc.wait_sem = 0)
    (hchanges : sc.nchanges = 0) : FinishRight now sc w := by
  obtain ⟨hw, hcases⟩ := h.woken hpc hsem
  have happlied : sc.applied = if sc.call.changes = 0 then 0 else 1 := by
    have hif := hw.applied
    rw [hchanges] at hif
    rw [hif]
    by_cases hzero : sc.call.changes = 0
    · rw [if_pos hzero, if_neg (fun hboth => hboth.2 hzero)]
    · rw [if_neg hzero, if_pos ⟨rfl, hzero⟩]
  rcases hcases with ⟨rfl, hrep⟩ | ⟨hreq, hnone, rfl⟩ | ⟨hreq, rfl, hdeadline⟩ | ⟨hreq, rfl⟩
  · -- the answer was posted, and this post was taken
    obtain ⟨hanswer, -⟩ := hw.answered hrep
    refine ⟨?_, ?_, ?_, happlied⟩
    · intro r hr
      have hresult : sc.result = r := Option.some.inj (hanswer.symm.trans hr)
      refine ⟨hresult, ?_⟩
      intro hne
      rw [← hresult] at hne ⊢
      exact returned_of_ne_zero hne
    · intro r _ hr
      rw [hanswer]
      exact congrArg some (ret_of_returned hr)
    · intro htimed hr
      exact hw.deadline hrep htimed (ret_of_returned hr)
  · -- a wakeup, and there are no events yet
    have hresult : sc.ret .posted = 0 := hw.nothing hreq
    refine ⟨?_, ?_, ?_, happlied⟩
    · intro r hr
      rw [hw.asked hreq] at hr
      cases hr
    · intro r hpos hr
      have hzero := ret_of_returned hr
      omega
    · intro htimed
      rw [Option.isNone_iff_eq_none] at hnone
      rw [hnone] at htimed
      cases htimed
  · refine ⟨?_, ?_, fun _ _ => hdeadline, happlied⟩
    · intro r hr
      rw [hw.asked hreq] at hr
      cases hr
    · intro r hpos hr
      have hzero : 0 = r := ret_of_returned hr
      omega
  · refine ⟨?_, ?_, ?_, happlied⟩
    · intro r hr
      rw [hw.asked hreq] at hr
      cases hr
    · intro r hpos hr
      have hminus : -1 = r := ret_of_returned hr
      omega
    · intro _ hr
      have hminus : (-1 : ℤ) = 0 := ret_of_returned hr
      omega

theorem SemScSettled.finish (h : SemScSettled now sc) (hsafe : sc.pc ≠ .none → sc.wait_sem = 0) :
    SemScSettled now sc.finish := by
  unfold SemSc.finish
  split
  · rename_i w hpc
    have hsem := hsafe (by rw [hpc]; simp)
    obtain ⟨hw, -⟩ := h.woken hpc hsem
    refine ⟨rfl, hsem, ?_, hw.applied_le⟩
    dsimp only
    split
    · rfl
    · rename_i hsome
      apply hw.timed
      rw [Option.isSome_iff_ne_none]
      rw [Option.isNone_iff_eq_none] at hsome
      exact hsome
  · exact h

theorem SemScSettled.reply (h : SemScSettled now sc) : SemScSettled now sc.reply := by
  unfold SemSc.reply
  split
  · rename_i hcan
    unfold SemScSettled at h
    rw [hcan.1] at h
    exact ⟨rfl, h.2.2.1, h.2.2.2, h.1.applied_le⟩
  · exact h

/-- INTERNAL: a wakeup is one post more. -/
theorem SemWaiting.alarmEventSem (h : SemWaiting now sc) : PostsFor now sc sc.alarmEventSem := by
  unfold SemSc.alarmEventSem
  split
  · rename_i halarm
    refine ⟨⟨⟨h.written, h.answered, h.asked, h.pending, h.applied⟩, h.uses, fun _ => rfl, h.nothing,
      h.deadline⟩, ?_, rfl, rfl⟩
    have hnone : sc.call.timed.isNone = true := by
      rw [Option.isNone_iff_eq_none]
      by_contra hsome
      rw [h.timed (Option.isSome_iff_ne_none.mpr hsome)] at halarm
      cases halarm
    unfold posts
    dsimp only
    rw [halarm, hnone]
    simp only [Bool.not_true, Bool.and_false, Bool.not_false, Bool.and_true, if_true]
    simp
    omega
  · exact ⟨h, rfl, rfl, rfl⟩

theorem SemScSettled.alarmEventSem (h : SemScSettled now sc) : SemScSettled now sc.alarmEventSem := by
  apply h.posted
  · -- nobody has asked for a wakeup
    intro hpc
    have halarm : sc.need_alarm_sem = false := by
      unfold SemScSettled at h
      rcases hpc with hpc | hpc
      · rw [hpc] at h
        exact h.2.2.1
      · rw [hpc] at h
        exact h.2.2.2
    have hsame : sc.alarmEventSem = sc := by
      unfold SemSc.alarmEventSem
      rw [halarm]
      rfl
    rw [hsame]
    exact h
  · intro hw
    exact hw.alarmEventSem

/-- The time goes on. -/
theorem SemScSettled.tick (h : SemScSettled now sc) {now' : ℕ} (hle : now ≤ now') :
    SemScSettled now' sc := by
  have hwaiting : SemWaiting now sc → SemWaiting now' sc := by
    intro hw
    refine ⟨hw.toSemRequest, hw.uses, hw.timed, hw.nothing, ?_⟩
    intro hrep htimed hzero
    exact le_trans (hw.deadline hrep htimed hzero) hle
  unfold SemScSettled at h ⊢
  cases hpc : sc.pc with
  | none =>
    rw [hpc] at h
    exact h
  | spins =>
    rw [hpc] at h
    exact h
  | waits =>
    rw [hpc] at h
    exact ⟨hwaiting h.1, h.2⟩
  | woken w =>
    rw [hpc] at h
    cases w with
    | posted => exact ⟨hwaiting h.1, h.2⟩
    | timedout => exact ⟨hwaiting h.1, h.2.1, le_trans h.2.2 hle⟩
    | interrupted => exact ⟨hwaiting h.1, h.2⟩

/-! ## All contexts -/

variable {s : SemSys}

/-- All contexts are settled. -/
def SemSettled (s : SemSys) : Prop := ∀ i, SemScSettled s.now (s.sc i)

theorem SemSettled.set (h : SemSettled s) {i : ℕ} {sc : SemSc} (hsc : SemScSettled s.now sc) :
    SemSettled (s.set i sc) := by
  intro j
  unfold SemSys.set
  dsimp only
  by_cases hj : j = i
  · rw [hj, Function.update_self]
    exact hsc
  · rw [Function.update_of_ne hj]
    exact h j

/-- INTERNAL: a safe step keeps all contexts settled. -/
theorem SemSettled.step (h : SemSettled s) {a : SemStep} (hsafe : SemSafe s a) : SemSettled (s.step a) := by
  cases a with
  | submit i call => exact h.set ((h i).submit call)
  | handle i result error =>
    apply h.set
    apply (h i).handle error _ hsafe
    intro hboth
    exact if_pos hboth
  | wake i => exact h.set (h i).wake
  | expire i => exact h.set (h i).expire
  | interrupt i => exact h.set (h i).interrupt
  | finish i => exact h.set ((h i).finish fun hpc => (hsafe hpc).1)
  | reply i => exact h.set (h i).reply
  | alarm i => exact h.set (h i).alarmEventSem
  | tick ms =>
    intro i
    exact (h i).tick (Nat.le_add_right _ _)

/-- **Events and their calls**.  In a run in which the loop has something to report, or the deadline is
over, whenever it looks at a call with a deadline, and in which no call leaves a post or unhandled changes behind,
every answer is reported by the call that asked for it, a call with a deadline that reports nothing has waited for
it, and changes are applied once.
SOURCE: adapter/syscall/ff_hook_syscall.c:2335-2458, 2662-2768, ff_socket_ops.c:552-618, 305-379 -/
theorem sem_requests_answered (as : List SemStep) (hsafe : AllSteps SemSys.step SemSafe {} as) :
    AllSteps SemSys.step SemRight {} as := by
  have hinit : SemSettled {} := fun _ => ⟨rfl, rfl, rfl, Nat.zero_le _⟩
  have hkeep : ∀ s a, SemSettled s → SemSafe s a → SemSettled (s.step a) :=
    fun s a h hsafe => h.step hsafe
  apply AllSteps.imp hkeep _ hinit hsafe
  intro s a h hsafe
  refine ⟨fun i => ((h.step hsafe) i).applied_le, ?_⟩
  cases a with
  | finish i =>
    intro w hpc
    obtain ⟨hsem, hchanges⟩ := hsafe (by rw [hpc]; simp)
    exact (h i).finishRight hpc hsem hchanges
  | reply i =>
    intro hpc hrep
    have hsc := h i
    unfold SemScSettled at hsc
    rw [hpc] at hsc
    exact (hsc.1.answered hrep).1
  | submit i call => trivial
  | handle i result error => trivial
  | wake i => trivial
  | expire i => trivial
  | interrupt i => trivial
  | alarm i => trivial
  | tick ms => trivial

/-- A `kevent` with one change that is looked at twice, and an `epoll_wait` that times out. -/
def twoWaits : List SemStep :=
  [.submit 0 (.kevent 1 8 none), .handle 0 0 0, .handle 0 2 0, .wake 0, .finish 0,
    .submit 0 (.epoll_wait 8 5), .tick 5, .expire 0, .finish 0]

theorem sem_requests_answered_two_waits :
    AllSteps SemSys.step SemSafe {} twoWaits ∧ AllSteps SemSys.step SemRight {} twoWaits :=
  have hsafe : AllSteps SemSys.step SemSafe {} twoWaits := by
    decide
  ⟨hsafe, sem_requests_answered twoWaits hsafe⟩

/-- An `epoll_wait` whose deadline is over just before the loop finds three events for it. -/
def lateEvents : List SemStep :=
  [.submit 0 (.epoll_wait 8 5), .tick 5, .expire 0, .handle 0 3 0, .finish 0]

/-- The call returns 0, and the events are dropped. -/
theorem late_events_dropped : ¬ AllSteps SemSys.step SemRight {} lateEvents := by
  rintro ⟨-, -, -, -, ⟨-, hfinish⟩, -⟩
  obtain ⟨hret, -⟩ := (hfinish .timedout rfl).answer 3 rfl
  have hzero : (0 : ℤ) = 3 := hret
  omega

end FStack.Analysis
