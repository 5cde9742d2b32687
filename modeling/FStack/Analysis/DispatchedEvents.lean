import FStack.Model.KqueueDispatch

/-!
# What the objects of a batch are told

The directions of an event are added to a variable that is never cleared, so an object is told all the directions
that have been reported for any descriptor before it in the batch (`BatchInv`).  `batch_right_iff` says when these
are directions of its own descriptor.
-/

set_option autoImplicit false

namespace FStack.Analysis

open FStack.Model FStack.Prelude

variable {σ : Type}
variable {kev : RawKevent}

/-- The loop, with the events that it has gone through. -/
structure BatchState (σ : Type) where
  loop : KqDispatch σ
  seen : List RawKevent

/-- A round. -/
def BatchState.step (objs : KqObjects σ) (maxfd : BitVec 32) (s : BatchState σ) (kev : RawKevent) : BatchState σ :=
  ⟨s.loop.step objs maxfd kev, s.seen ++ [kev]⟩

def osfdOf (kev : RawKevent) : BitVec 32 := kev.ident.setWidth 32

/-- One of the events is about the descriptor and the direction. -/
def ReportedFor (seen : List RawKevent) (fd : BitVec 32) (dir : EvFilter) : Prop :=
  ∃ kev ∈ seen, osfdOf kev = fd ∧ dir ∈ filterEvents kev.filter

/-- A call is about the descriptor of the event and its object, and tells it what has been reported. -/
def CallTrue (objs : KqObjects σ) (world : σ) (seen : List RawKevent) (fd : BitVec 32) : NotifyCall → Prop
  | .kqueueCtrlDel _ _ => True
  | .setRcvEvents fd' obj events =>
    fd' = fd ∧ objs.getNotifyObj world fd = some obj ∧ ∀ dir ∈ events, ReportedFor seen fd dir
  | .inputNotify fd' obj => fd' = fd ∧ objs.getNotifyObj world fd = some obj ∧ ReportedFor seen fd .read
  | .outputNotify fd' obj => fd' = fd ∧ objs.getNotifyObj world fd = some obj ∧ ReportedFor seen fd .write
  | .hangupNotify fd' obj => fd' = fd ∧ objs.getNotifyObj world fd = some obj

/-- The calls of a round are true, and an event flagged `EV_ERROR` whose descriptor has an object leads to
`HangupNotify`. -/
def BatchRight (objs : KqObjects σ) (maxfd : BitVec 32) (s : BatchState σ) (kev : RawKevent) : Prop :=
  ∃ calls, (s.step objs maxfd kev).loop.calls = s.loop.calls ++ calls ∧
    (∀ c ∈ calls, CallTrue objs s.loop.world (s.seen ++ [kev]) (osfdOf kev) c) ∧
    (kev.flags.EV_ERROR = true → hasFdRef maxfd (osfdOf kev) = true →
      ∀ obj, objs.getNotifyObj s.loop.world (osfdOf kev) = some obj → .hangupNotify (osfdOf kev) obj ∈ calls)

/-- What has been reported for any descriptor of the proxy has been reported for this one too, and no flag is set
that the filter does not show. -/
def BatchSafe (objs : KqObjects σ) (maxfd : BitVec 32) (s : BatchState σ) (kev : RawKevent) : Prop :=
  hasFdRef maxfd (osfdOf kev) = true → ∀ obj, objs.getNotifyObj s.loop.world (osfdOf kev) = some obj →
    (∀ other ∈ s.seen ++ [kev], hasFdRef maxfd (osfdOf other) = true → ∀ dir ∈ filterEvents other.filter,
      ReportedFor (s.seen ++ [kev]) (osfdOf kev) dir) ∧
    (kev.flags.EV_ERROR = true → kev.filter = EV_ERROR)

/-- The variable has all the directions that have been reported for descriptors of the proxy. -/
def BatchInv (maxfd : BitVec 32) (s : BatchState σ) : Prop :=
  ∀ dir, dir ∈ s.loop.revents ↔
    ∃ kev ∈ s.seen, hasFdRef maxfd (osfdOf kev) = true ∧ dir ∈ filterEvents kev.filter

/-! ## One round -/

section

variable (objs : KqObjects σ) (maxfd : BitVec 32)

theorem notifyInput_revents (s : KqDispatch σ) (fd : BitVec 32) (obj : ℕ) :
    (s.notifyInput objs fd obj).1.revents = s.revents := by
  rw [KqDispatch.notifyInput]
  split <;> rfl

theorem notifyOutput_revents (s : KqDispatch σ) (fd : BitVec 32) (obj : ℕ) :
    (s.notifyOutput objs fd obj).revents = s.revents := by
  rw [KqDispatch.notifyOutput]
  split <;> rfl

/-- INTERNAL: `InputNotify` is called if the variable has the direction. -/
theorem notifyInput_calls (s : KqDispatch σ) (fd : BitVec 32) (obj : ℕ) :
    ∃ calls, (s.notifyInput objs fd obj).1.calls = s.calls ++ calls ∧
      ∀ c ∈ calls, c = .inputNotify fd obj ∧ .read ∈ s.revents := by
  rw [KqDispatch.notifyInput]
  split
  · rename_i hread
    exact ⟨[.inputNotify fd obj], rfl, fun c hc => ⟨List.mem_singleton.mp hc, hread⟩⟩
  · exact ⟨[], (List.append_nil _).symm, fun c hc => absurd hc List.not_mem_nil⟩

/-- INTERNAL: And so is `OutputNotify`. -/
theorem notifyOutput_calls (s : KqDispatch σ) (fd : BitVec 32) (obj : ℕ) :
    ∃ calls, (s.notifyOutput objs fd obj).calls = s.calls ++ calls ∧
      ∀ c ∈ calls, c = .outputNotify fd obj ∧ .write ∈ s.revents := by
  rw [KqDispatch.notifyOutput]
  split
  · rename_i hwrite
    exact ⟨[.outputNotify fd obj], rfl, fun c hc => ⟨List.mem_singleton.mp hc, hwrite⟩⟩
  · exact ⟨[], (List.append_nil _).symm, fun c hc => absurd hc List.not_mem_nil⟩

/-- INTERNAL: A round for a descriptor that the proxy does not know changes nothing. -/
theorem step_unknown (hunknown : hasFdRef maxfd (osfdOf kev) = false) (s : KqDispatch σ) :
    s.step objs maxfd kev = s := by
  rw [KqDispatch.step]
  exact if_pos hunknown

/-- INTERNAL: In any other round the directions of the event are added. -/
theorem step_revents (hknown : hasFdRef maxfd (osfdOf kev) = true) (s : KqDispatch σ) :
    (s.step objs maxfd kev).revents = s.revents ∪ filterEvents kev.filter := by
  rw [osfdOf] at hknown
  rw [KqDispatch.step]
  dsimp only
  rw [hknown, if_neg (by decide)]
  split
  · rfl
  · split
    · rfl
    · split
      · exact notifyInput_revents objs _ _ _
      · rw [notifyOutput_revents]
        exact notifyInput_revents objs _ _ _

/-- **The calls of a round**: an object is given the directions, and then told that there is input or
output if the variable says so; only an event whose filter is the number of `EV_ERROR` leads to `HangupNotify`. -/
theorem step_calls (hknown : hasFdRef maxfd (osfdOf kev) = true) {s : KqDispatch σ} {obj : ℕ}
    (hobj : objs.getNotifyObj s.world (osfdOf kev) = some obj) :
    ∃ rest, (s.step objs maxfd kev).calls =
        s.calls ++ .setRcvEvents (osfdOf kev) obj (s.revents ∪ filterEvents kev.filter) :: rest ∧
      (kev.filter = EV_ERROR ∧ rest = [.hangupNotify (osfdOf kev) obj] ∨
        kev.filter ≠ EV_ERROR ∧ ∀ c ∈ rest,
          c = .inputNotify (osfdOf kev) obj ∧ .read ∈ s.revents ∪ filterEvents kev.filter ∨
          c = .outputNotify (osfdOf kev) obj ∧ .write ∈ s.revents ∪ filterEvents kev.filter) := by
  rw [osfdOf] at hknown hobj ⊢
  rw [KqDispatch.step]
  dsimp only
  rw [hknown, if_neg (by decide), hobj]
  dsimp only
  generalize hstored : KqDispatch.record _ _ (.setRcvEvents (kev.ident.setWidth 32) obj _) = stored
  have hcalls : stored.calls =
      s.calls ++ [.setRcvEvents (kev.ident.setWidth 32) obj (s.revents ∪ filterEvents kev.filter)] := by
    rw [← hstored]
    rfl
  have hrevents : stored.revents = s.revents ∪ filterEvents kev.filter := by
    rw [← hstored]
    rfl
  by_cases herror : kev.filter = EV_ERROR
  · rw [if_pos herror]
    refine ⟨[.hangupNotify (kev.ident.setWidth 32) obj], ?_, .inl ⟨herror, rfl⟩⟩
    rw [KqDispatch.record, hcalls, List.append_assoc]
    rfl
  · rw [if_neg herror]
    obtain ⟨input, hinput, htrue⟩ := notifyInput_calls objs stored (kev.ident.setWidth 32) obj
    split
    · refine ⟨input, ?_, .inr ⟨herror, fun c hc => .inl ?_⟩⟩
      · rw [hinput, hcalls, List.append_assoc]
        rfl
      · rw [← hrevents]
        exact htrue c hc
    · obtain ⟨output, houtput, htrue'⟩ := notifyOutput_calls objs
        (stored.notifyInput objs (kev.ident.setWidth 32) obj).1 (kev.ident.setWidth 32) obj
      refine ⟨input ++ output, ?_, .inr ⟨herror, fun c hc => ?_⟩⟩
      · rw [houtput, hinput, hcalls, List.append_assoc, List.append_assoc]
        rfl
      · rw [← hrevents]
        rcases List.mem_append.mp hc with hc | hc
        · exact .inl (htrue c hc)
        · rw [notifyInput_revents] at htrue'
          exact .inr (htrue' c hc)

/-- INTERNAL: A descriptor without an object is taken out of the kqueue. -/
theorem step_noObj (hknown : hasFdRef maxfd (osfdOf kev) = true) {s : KqDispatch σ}
    (hobj : objs.getNotifyObj s.world (osfdOf kev) = none) :
    (s.step objs maxfd kev).calls =
      s.calls ++ [.kqueueCtrlDel (osfdOf kev) (s.revents ∪ filterEvents kev.filter)] := by
  rw [osfdOf] at hknown hobj ⊢
  rw [KqDispatch.step]
  dsimp only
  rw [hknown, if_neg (by decide), hobj]
  rfl

end

/-! ## Batches -/

section

variable {objs : KqObjects σ} {maxfd : BitVec 32} {s : BatchState σ}

/-- INTERNAL: Every round keeps the invariant. -/
theorem BatchInv.step (h : BatchInv maxfd s) (kev : RawKevent) : BatchInv maxfd (s.step objs maxfd kev) := by
  intro dir
  simp only [BatchState.step, List.mem_append, List.mem_singleton, or_and_right, exists_or, exists_eq_left]
  rw [← h dir]
  cases hknown : hasFdRef maxfd (osfdOf kev) with
  | false =>
    rw [step_unknown objs maxfd hknown]
    simp
  | true =>
    rw [step_revents objs maxfd hknown, Finset.mem_union]
    simp

/-- INTERNAL: The directions that an object is given are reported for its descriptor exactly when all are. -/
theorem BatchInv.reported_iff (h : BatchInv maxfd s) (hknown : hasFdRef maxfd (osfdOf kev) = true) :
    (∀ dir ∈ s.loop.revents ∪ filterEvents kev.filter, ReportedFor (s.seen ++ [kev]) (osfdOf kev) dir) ↔
      ∀ other ∈ s.seen ++ [kev], hasFdRef maxfd (osfdOf other) = true → ∀ dir ∈ filterEvents other.filter,
        ReportedFor (s.seen ++ [kev]) (osfdOf kev) dir := by
  constructor
  · intro hall other hother hfd dir hdir
    refine hall dir (Finset.mem_union.mpr ?_)
    rcases List.mem_append.mp hother with hseen | hlast
    · exact .inl ((h dir).mpr ⟨other, hseen, hfd, hdir⟩)
    · rw [List.mem_singleton] at hlast
      rw [← hlast]
      exact .inr hdir
  · intro hall dir hdir
    rcases Finset.mem_union.mp hdir with hold | hnew
    · obtain ⟨other, hseen, hfd, hdir⟩ := (h dir).mp hold
      exact hall other (List.mem_append_left _ hseen) hfd dir hdir
    · exact hall kev (List.mem_append_right _ (List.mem_singleton_self kev)) hknown dir hnew

/-- **A round is right exactly when it is safe.** -/
theorem BatchInv.right_iff (h : BatchInv maxfd s) (kev : RawKevent) :
    BatchRight objs maxfd s kev ↔ BatchSafe objs maxfd s kev := by
  unfold BatchRight BatchSafe BatchState.step
  dsimp only
  cases hknown : hasFdRef maxfd (osfdOf kev) with
  | false =>
    rw [step_unknown objs maxfd hknown]
    refine ⟨fun _ hfalse => absurd hfalse (by decide), fun _ => ⟨[], (List.append_nil _).symm, ?_, ?_⟩⟩
    · exact fun c hc => absurd hc List.not_mem_nil
    · exact fun _ hfalse => absurd hfalse (by decide)
  | true =>
    cases hobj : objs.getNotifyObj s.loop.world (osfdOf kev) with
    | none =>
      refine ⟨fun _ _ obj hsome => (nomatch hsome), fun _ => ⟨_, step_noObj objs maxfd hknown hobj, ?_, ?_⟩⟩
      · intro c hc
        rw [List.mem_singleton.mp hc]
        trivial
      · exact fun _ _ obj hsome => nomatch hsome
    | some obj =>
      obtain ⟨rest, hcalls, hrest⟩ := step_calls objs maxfd hknown hobj
      rw [hcalls]
      constructor
      · rintro ⟨calls, heq, htrue, hangup⟩ - obj' hobj'
        cases hobj'
        rw [← List.append_cancel_left heq] at htrue hangup
        obtain ⟨-, -, hdirs⟩ := htrue _ List.mem_cons_self
        refine ⟨(h.reported_iff hknown).mp hdirs, fun hflag => ?_⟩
        rcases hrest with ⟨herror, -⟩ | ⟨-, hnotify⟩
        · exact herror
        · rcases List.mem_cons.mp (hangup hflag rfl obj rfl) with heq' | hmem
          · cases heq'
          · rcases hnotify _ hmem with ⟨heq', -⟩ | ⟨heq', -⟩
            · cases heq'
            · cases heq'
      · intro hsafe
        obtain ⟨hall, herror⟩ := hsafe rfl obj rfl
        have hdirs := (h.reported_iff hknown).mpr hall
        refine ⟨_, rfl, fun c hc => ?_, fun hflag _ obj' hobj' => ?_⟩
        · rcases List.mem_cons.mp hc with heq | hmem
          · rw [heq]
            exact ⟨rfl, hobj, hdirs⟩
          · rcases hrest with ⟨-, hrest⟩ | ⟨-, hnotify⟩
            · rw [hrest, List.mem_singleton] at hmem
              rw [hmem]
              exact ⟨rfl, hobj⟩
            · rcases hnotify c hmem with ⟨heq, hread⟩ | ⟨heq, hwrite⟩
              · rw [heq]
                exact ⟨rfl, hobj, hdirs _ hread⟩
              · rw [heq]
                exact ⟨rfl, hobj, hdirs _ hwrite⟩
        · cases hobj'
          rcases hrest with ⟨-, hrest⟩ | ⟨hne, -⟩
          · rw [hrest]
            exact List.mem_cons_of_mem _ (List.mem_singleton_self _)
          · exact absurd (herror hflag) hne

end

/-- INTERNAL: At the beginning of a batch there is nothing. -/
theorem batchInv_init (maxfd : BitVec 32) (world : σ) : BatchInv maxfd ⟨⟨world, ∅, []⟩, []⟩ := by
  intro dir
  simp

/-- **A batch is dispatched right exactly when** every event is safe. -/
theorem batch_right_iff (objs : KqObjects σ) (maxfd : BitVec 32) (world : σ) (evtlist : List RawKevent) :
    AllSteps (BatchState.step objs maxfd) (BatchRight objs maxfd) ⟨⟨world, ∅, []⟩, []⟩ evtlist ↔
      AllSteps (BatchState.step objs maxfd) (BatchSafe objs maxfd) ⟨⟨world, ∅, []⟩, []⟩ evtlist := by
  refine @allSteps_iff _ _ (BatchState.step objs maxfd) _ _ (BatchInv maxfd) (fun _ => True)
    (fun s a h _ _ => h.step a) (fun s a h _ => h.right_iff a) _ (batchInv_init maxfd world) _
    fun _ _ => trivial

/-- The rounds are those of the loop. -/
theorem batch_loop (objs : KqObjects σ) (maxfd : BitVec 32) (world : σ) (evtlist : List RawKevent) :
    (evtlist.foldl (BatchState.step objs maxfd) ⟨⟨world, ∅, []⟩, []⟩).loop =
      KqDispatch.kqueueRcvEventList objs maxfd world evtlist := by
  have hfold : ∀ s : BatchState σ, (evtlist.foldl (BatchState.step objs maxfd) s).loop =
      evtlist.foldl (KqDispatch.step objs maxfd) s.loop := by
    induction evtlist with
    | nil => exact fun s => rfl
    | cons kev evtlist ih => exact fun s => ih (s.step objs maxfd kev)
  exact hfold _

/-- Input for the descriptor 1, and output for the descriptor 2, which has an object. -/
theorem not_batch_right :
    ¬∀ (objs : KqObjects Unit) evtlist,
      AllSteps (BatchState.step objs 8) (BatchRight objs 8) ⟨⟨(), ∅, []⟩, []⟩ evtlist := by
  intro hright
  have hrun := hright ⟨fun _ fd => if fd = 2 then some 0 else none, fun _ _ _ => (), fun _ _ => ((), 0),
    fun _ _ => ((), 0), fun _ _ => (), fun _ _ _ => ()⟩
    [{ ident := 1, filter := EVFILT_READ }, { ident := 2, filter := EVFILT_WRITE }]
  have hinv := batchInv_init 8 ()
  have hsafe := ((hinv.step { ident := 1, filter := EVFILT_READ }).right_iff _).mp hrun.2.1
  obtain ⟨hall, -⟩ := hsafe (by decide) 0 rfl
  obtain ⟨kev, hmem, hfd, hdir⟩ := hall _ List.mem_cons_self (by decide) .read (by decide)
  rcases List.mem_cons.mp hmem with heq | hmem
  · rw [heq] at hfd
    exact absurd hfd (by decide)
  · rw [List.mem_singleton.mp hmem] at hdir
    exact absurd hdir (by decide)

end FStack.Analysis
