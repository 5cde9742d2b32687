import FStack.Analysis.ThreadRuns

/-!
# The order in which threads run

`_runlist` is a queue.  A step puts the threads that it wakes at its end, in the order of their events in the log, and
takes its first thread when it comes to `ThreadSchdule`; `step_queue` says so for every step.  `runlist_fifo` follows for
runs: there threads go on in the order in which they became runnable, and nothing can keep a thread waiting for longer
than the threads in front of it.  A thread that `NotifyThread` resumes from the daemon goes on at once and is never in
`_runlist`; it is in neither order.

`wait_not_short` is about the threads in `_sleeplist`: none goes on before what it waits for.  `threadsKept_run` is about
those that are given back to the pool: none is used.
-/

set_option autoImplicit false

namespace FStack.Analysis

open FStack.Prelude FStack.Model

variable {base : ℤ} {s s' : MtFrame} {place : ThreadId → Place} {loose : Finset ThreadId}
  {t u : ThreadId} {new : List ThreadId}
variable {s'' : MtFrame} {tasks : List (TaskId × Bool)} {a : MtStep} {steps : List MtStep} {f : ThreadFlag}

/-! ## Scheduling -/

/-- The threads that have become runnable, in that order. -/
def woken : List MtEvent → List ThreadId
  | [] => []
  | .runable t :: log => woken log ++ [t]
  | .started _ _ :: log | .processed _ _ _ :: log | .called _ _ :: log | .returned _ _ :: log => woken log

/-- Whether a step comes to `ThreadSchdule`. -/
def schedules (s : MtFrame) (a : MtStep) : Bool :=
  s.canStep a &&
    match a with
    | .sleep _ _ | .waitNotify _ _ | .exit _ | .loopEnd => true
    | .kqueueSchedule added _ _ => added
    | .execAllTask tasks =>
      tasks ≠ [] && (MtFrame.createSubs tasks [] (s.record (.called s.curr_thread (tasks.map Prod.fst)))).2.2
    | _ => false

/-- The threads that a step wakes. -/
def wokenBy (s : MtFrame) (a : MtStep) : List ThreadId :=
  (woken (s.step a).log).drop (woken s.log).length

/-- The thread that goes on at `ThreadSchdule`, if one is runnable; not one that `NotifyThread` resumes. -/
def resumedBy (s : MtFrame) (a : MtStep) : List ThreadId :=
  if schedules s a = true ∧ s.runlist ++ wokenBy s a ≠ [] then [(s.step a).curr_thread] else []

/-- How often a run comes to `ThreadSchdule`. -/
def schedulings : MtFrame → List MtStep → ℕ
  | _, [] => 0
  | s, a :: steps => (if schedules s a then 1 else 0) + schedulings (s.step a) steps

/-! ## What the operations put into the queue -/

/-- `new` has been put at the end of `_runlist`. -/
structure RunQueued (s s' : MtFrame) (new : List ThreadId) : Prop where
  runlist_eq : s'.runlist = s.runlist ++ new
  woken_eq : woken s'.log = woken s.log ++ new
  daemon_eq : s'.daemon = s.daemon

theorem RunQueued.trans {more : List ThreadId} (h₁ : RunQueued s s' new) (h₂ : RunQueued s' s'' more) :
    RunQueued s s'' (new ++ more) where
  runlist_eq := by rw [h₂.runlist_eq, h₁.runlist_eq, List.append_assoc]
  woken_eq := by rw [h₂.woken_eq, h₁.woken_eq, List.append_assoc]
  daemon_eq := h₂.daemon_eq.trans h₁.daemon_eq

theorem runQueued_nil (hrun : s'.runlist = s.runlist) (hlog : woken s'.log = woken s.log) (hd : s'.daemon = s.daemon) :
    RunQueued s s' [] where
  runlist_eq := by rw [hrun, List.append_nil]
  woken_eq := by rw [hlog, List.append_nil]
  daemon_eq := hd

theorem runQueued_insertRunable (s : MtFrame) (t : ThreadId) : RunQueued s (s.insertRunable t) [t] := ⟨rfl, rfl, rfl⟩

theorem runQueued_switchTo (s : MtFrame) (t : ThreadId) : RunQueued s (s.switchTo t) [] := by
  have hlog : woken (resumeEvents s t ++ s.log) = woken s.log := by
    unfold resumeEvents
    cases s.context t with
    | start =>
      cases taskOf s t with
      | none => rfl
      | some task => rfl
    | inside => rfl
    | waiting => rfl
  rw [switchTo_eq]
  exact runQueued_nil rfl hlog rfl

theorem runQueued_allocThread (s : MtFrame) (initial : Bool) : RunQueued s (s.allocThread initial).1 [] := by
  unfold MtFrame.allocThread
  split
  · exact runQueued_nil rfl rfl rfl
  · split
    · exact runQueued_nil rfl rfl rfl
    · split <;> exact runQueued_nil rfl rfl rfl

theorem runQueued_freeThread (s : MtFrame) (t : ThreadId) : RunQueued s (s.freeThread t) [] := by
  unfold MtFrame.freeThread
  dsimp only
  split <;> exact runQueued_nil rfl rfl rfl

theorem runQueued_createThread (s : MtFrame) (start : ThreadStart) (runable initial : Bool) :
    ∃ new, RunQueued s (s.createThread start runable initial).1 new ∧ (runable = false → new = []) := by
  have halloc := runQueued_allocThread s initial
  unfold MtFrame.createThread
  split
  · rename_i s₁ heq
    rw [heq] at halloc
    exact ⟨[], halloc, fun _ => rfl⟩
  · rename_i s₁ t heq
    rw [heq] at halloc
    have hstart : RunQueued s₁ { s₁ with start := Function.update s₁.start t (some start) } [] := runQueued_nil rfl rfl rfl
    cases runable with
    | false => exact ⟨[], halloc.trans hstart, fun _ => rfl⟩
    | true => exact ⟨[t], (halloc.trans hstart).trans (runQueued_insertRunable _ t), fun h => by cases h⟩

theorem runQueued_createSubs (tasks : List (TaskId × Bool)) (list : List ThreadId) (s : MtFrame) :
    RunQueued s (MtFrame.createSubs tasks list s).1 [] := by
  induction tasks generalizing list s with
  | nil => exact runQueued_nil rfl rfl rfl
  | cons head tasks ih =>
    obtain ⟨task, initial⟩ := head
    obtain ⟨new, hnew, hnone⟩ := runQueued_createThread s (.taskProcess task) false initial
    obtain rfl := hnone rfl
    unfold MtFrame.createSubs
    split
    · rename_i s₁ heq
      rw [heq] at hnew
      exact hnew
    · rename_i s₁ sub heq
      rw [heq] at hnew
      have htype : RunQueued s₁ { s₁ with type := Function.update s₁.type sub .subThread } [] := runQueued_nil rfl rfl rfl
      exact (hnew.trans htype).trans (ih (list ++ [sub]) _)

theorem runQueued_startSubs (t : ThreadId) (list : List ThreadId) (s : MtFrame) :
    RunQueued s (MtFrame.startSubs t list s) list := by
  induction list generalizing s with
  | nil => exact runQueued_nil rfl rfl rfl
  | cons sub list ih =>
    have hadd : RunQueued s (s.addSubThread t sub) [] := by
      unfold MtFrame.addSubThread
      dsimp only
      split <;> exact runQueued_nil rfl rfl rfl
    exact (hadd.trans (runQueued_insertRunable _ sub)).trans (ih _)

theorem runQueued_freeSubs (list : List ThreadId) (s : MtFrame) : RunQueued s (MtFrame.freeSubs list s) [] := by
  induction list generalizing s with
  | nil => exact runQueued_nil rfl rfl rfl
  | cons sub list ih => exact (runQueued_freeThread s sub).trans (ih _)

theorem runQueued_wakeupParent (s : MtFrame) (t : ThreadId) : ∃ new, RunQueued s (s.wakeupParent t) new := by
  unfold MtFrame.wakeupParent
  split
  · exact ⟨[], runQueued_nil rfl rfl rfl⟩
  · rename_i p hp
    have hleave : RunQueued s (s.removeSubThread p t) [] := by
      unfold MtFrame.removeSubThread
      dsimp only
      split <;> exact runQueued_nil rfl rfl rfl
    dsimp only
    split
    · have hpend : RunQueued (s.removeSubThread p t) ((s.removeSubThread p t).removePend p) [] := runQueued_nil rfl rfl rfl
      exact ⟨[p], (hleave.trans hpend).trans (runQueued_insertRunable _ p)⟩
    · exact ⟨[], hleave⟩

theorem runQueued_finishStart (s : MtFrame) (rc : ℤ) : RunQueued s (s.finishStart rc) [] := by
  unfold MtFrame.finishStart
  split <;> exact runQueued_nil rfl rfl rfl

theorem runQueued_wakeupLoop (now turns : ℕ) (s : MtFrame) : ∃ new, RunQueued s (MtFrame.wakeupLoop now turns s) new := by
  induction turns generalizing s with
  | zero => exact ⟨[], runQueued_nil rfl rfl rfl⟩
  | succ turns ih =>
    unfold MtFrame.wakeupLoop
    split
    · exact ⟨[], runQueued_nil rfl rfl rfl⟩
    · rename_i t htop
      split
      · have hout : RunQueued s (if s.hasFlag t .ioList = true then s.removeIoWait t else s.removeSleep t) [] := by
          split <;> exact runQueued_nil rfl rfl rfl
        obtain ⟨new, hrest⟩ := ih
          ((if s.hasFlag t .ioList = true then s.removeIoWait t else s.removeSleep t).insertRunable t)
        exact ⟨_, (hout.trans (runQueued_insertRunable _ t)).trans hrest⟩
      · exact ⟨[], runQueued_nil rfl rfl rfl⟩

/-! ## Steps -/

/-- `new` has been put at the end of `_runlist`, and then the first thread has been taken to go on, or the daemon if
there is none. -/
structure Handed (s s' : MtFrame) (new : List ThreadId) : Prop where
  woken_eq : woken s'.log = woken s.log ++ new
  next : (s.runlist ++ new = [] ∧ s'.runlist = [] ∧ s'.curr_thread = s.daemon) ∨
    s.runlist ++ new = s'.curr_thread :: s'.runlist

theorem RunQueued.threadSchdule (h : RunQueued s s' new) : Handed s s'.threadSchdule new := by
  unfold MtFrame.threadSchdule
  split
  · rename_i hrun
    have hswitch := runQueued_switchTo s' s'.daemon
    refine ⟨?_, .inl ⟨?_, ?_, ?_⟩⟩
    · rw [hswitch.woken_eq, h.woken_eq, List.append_nil]
    · rw [← h.runlist_eq, hrun]
    · rw [hswitch.runlist_eq, hrun, List.append_nil]
    · rw [(switchTo_curr s' s'.daemon).1, h.daemon_eq]
  · rename_i t rest hrun
    have hremove : woken (s'.removeRunable t).log = woken s'.log := rfl
    have htail : (s'.removeRunable t).runlist = s'.runlist.tail := rfl
    have hswitch := runQueued_switchTo (s'.removeRunable t) t
    refine ⟨?_, .inr ?_⟩
    · rw [hswitch.woken_eq, hremove, h.woken_eq, List.append_nil]
    · rw [(switchTo_curr _ t).1, hswitch.runlist_eq, htail, ← h.runlist_eq, hrun, List.tail_cons, List.append_nil]

theorem RunQueued.switchContext (h : RunQueued s s' new) : Handed s s'.switchContext new := by
  have hsave : RunQueued s' (s'.saveContext s'.curr_thread .inside) [] := runQueued_nil rfl rfl rfl
  have hboth := h.trans hsave
  rw [List.append_nil] at hboth
  exact hboth.threadSchdule

theorem handed_execAllTask (hne : tasks ≠ [])
    (hmade : (MtFrame.createSubs tasks [] (s.record (.called s.curr_thread (tasks.map Prod.fst)))).2.2 = true) :
    ∃ new, Handed s (s.execAllTask tasks) new := by
  have hcalled : RunQueued s (s.record (.called s.curr_thread (tasks.map Prod.fst))) [] := runQueued_nil rfl rfl rfl
  have hsubs := hcalled.trans (runQueued_createSubs tasks [] _)
  unfold MtFrame.execAllTask
  dsimp only
  rw [if_neg hne]
  split
  · rename_i s₁ list heq
    rw [heq] at hmade
    cases hmade
  · rename_i s₁ list heq
    rw [heq] at hsubs
    have hstarted := hsubs.trans (runQueued_startSubs s.curr_thread list s₁)
    have hpend : ∀ s : MtFrame, RunQueued s ((s.saveContext s.curr_thread .waiting).insertPend s.curr_thread) [] :=
      fun s => runQueued_nil rfl rfl rfl
    exact ⟨_, (hstarted.trans (hpend _)).threadSchdule⟩

theorem runQueued_execAllTask (hfail : ¬(tasks ≠ [] ∧
      (MtFrame.createSubs tasks [] (s.record (.called s.curr_thread (tasks.map Prod.fst)))).2.2 = true)) :
    RunQueued s (s.execAllTask tasks) [] := by
  have hcalled : RunQueued s (s.record (.called s.curr_thread (tasks.map Prod.fst))) [] := runQueued_nil rfl rfl rfl
  have hsubs := hcalled.trans (runQueued_createSubs tasks [] _)
  unfold MtFrame.execAllTask
  dsimp only
  split
  · exact runQueued_nil rfl rfl rfl
  · rename_i hne
    split
    · rename_i s₁ list heq
      rw [heq] at hsubs
      have hfreed := hsubs.trans (runQueued_freeSubs list s₁)
      exact hfreed.trans (runQueued_nil rfl rfl rfl)
    · rename_i s₁ list heq
      rw [heq] at hfail
      exact absurd ⟨hne, rfl⟩ hfail

theorem handed_exit (s : MtFrame) (rc : ℤ) : ∃ new, Handed s (s.exit rc) new := by
  have hfinish := runQueued_finishStart s rc
  unfold MtFrame.exit
  dsimp only
  split
  · obtain ⟨new, hparent⟩ := runQueued_wakeupParent (s.finishStart rc) s.curr_thread
    exact ⟨_, ((hfinish.trans hparent).trans (runQueued_freeThread _ _)).threadSchdule⟩
  · exact ⟨_, (hfinish.trans (runQueued_freeThread _ _)).threadSchdule⟩

theorem act_cases (hcan : s.canStep a = true) :
    (schedules s a = true ∧ ∃ new, Handed s (s.act a) new) ∨
      (schedules s a = false ∧ ∃ new, RunQueued s (s.act a) new) := by
  unfold schedules
  rw [hcan, Bool.true_and]
  cases a with
  | createThread initial =>
    obtain ⟨new, hnew, -⟩ := runQueued_createThread s .entry true initial
    exact .inr ⟨rfl, new, hnew⟩
  | sleep ms now =>
    have hsleep : RunQueued s (((s.setWakeupTime s.curr_thread (MtFrame.clockAdd now ms)).saveContext s.curr_thread
        .inside).insertSleep s.curr_thread) [] := runQueued_nil rfl rfl rfl
    exact .inl ⟨rfl, [], hsleep.threadSchdule⟩
  | kqueueSchedule added timeout now =>
    have hwait : RunQueued s ((s.setWakeupTime s.curr_thread (MtFrame.clockAdd now timeout)).insertIoWait s.curr_thread)
        [] := runQueued_nil rfl rfl rfl
    cases added with
    | false => exact .inr ⟨rfl, [], runQueued_nil rfl rfl rfl⟩
    | true => exact .inl ⟨rfl, [], hwait.switchContext⟩
  | waitNotify timeout now =>
    have hwait : RunQueued s ((s.setWakeupTime s.curr_thread (MtFrame.clockAdd now timeout)).insertIoWait s.curr_thread)
        [] := runQueued_nil rfl rfl rfl
    exact .inl ⟨rfl, [], hwait.switchContext⟩
  | execAllTask tasks =>
    by_cases hgo : tasks ≠ [] ∧
        (MtFrame.createSubs tasks [] (s.record (.called s.curr_thread (tasks.map Prod.fst)))).2.2 = true
    · exact .inl ⟨by simpa using hgo, handed_execAllTask hgo.1 hgo.2⟩
    · refine .inr ⟨?_, [], runQueued_execAllTask hgo⟩
      simpa using hgo
  | notifyThread thread =>
    refine .inr ⟨rfl, ?_⟩
    cases thread with
    | none => exact ⟨[], runQueued_nil rfl rfl rfl⟩
    | some t =>
      simp only [MtFrame.act, MtFrame.notifyThread]
      split
      · have hout : RunQueued s (s.removeIoWait t) [] := runQueued_nil rfl rfl rfl
        split
        · have hsave : RunQueued (s.removeIoWait t) ((s.removeIoWait t).saveContext (s.removeIoWait t).daemon .inside) [] :=
            runQueued_nil rfl rfl rfl
          exact ⟨[], (hout.trans hsave).trans (runQueued_switchTo _ t)⟩
        · exact ⟨[t], hout.trans (runQueued_insertRunable _ t)⟩
      · exact ⟨[], runQueued_nil rfl rfl rfl⟩
  | eventNotify owner =>
    refine .inr ⟨rfl, ?_⟩
    cases owner with
    | none => exact ⟨[], runQueued_nil rfl rfl rfl⟩
    | some t =>
      have hout : RunQueued s (s.removeIoWait t) [] := runQueued_nil rfl rfl rfl
      simp only [MtFrame.act, MtFrame.eventNotify]
      split
      · exact ⟨[t], hout.trans (runQueued_insertRunable _ t)⟩
      · exact ⟨[], runQueued_nil rfl rfl rfl⟩
  | swapDaemonThread =>
    refine .inr ⟨rfl, ?_⟩
    have hsave : RunQueued s (s.saveContext s.curr_thread .inside) [] := runQueued_nil rfl rfl rfl
    simp only [MtFrame.act, MtFrame.swapDaemonThread]
    split
    · exact ⟨_, (hsave.trans (runQueued_insertRunable _ _)).trans (runQueued_switchTo _ _)⟩
    · exact ⟨[], runQueued_nil rfl rfl rfl⟩
  | exit rc => exact .inl ⟨rfl, handed_exit s rc⟩
  | wakeupTimeout now => exact .inr ⟨rfl, runQueued_wakeupLoop now _ s⟩
  | loopEnd =>
    have hsame : RunQueued s s [] := runQueued_nil rfl rfl rfl
    exact .inl ⟨rfl, [], hsame.switchContext⟩

theorem wokenBy_eq (h : woken (s.step a).log = woken s.log ++ new) : wokenBy s a = new := by
  rw [wokenBy, h, List.drop_left]

/-- **What a step does with the queue.**  It wakes some threads; then it hands over to the first thread of
the queue, or leaves the queue as it is. -/
theorem step_queue (s : MtFrame) (a : MtStep) :
    (schedules s a = true ∧ Handed s (s.step a) (wokenBy s a)) ∨
      (schedules s a = false ∧ RunQueued s (s.step a) (wokenBy s a)) := by
  by_cases hcan : s.canStep a = true
  · have hstep : s.step a = s.act a := if_pos hcan
    rcases act_cases hcan with ⟨hsched, new, hnew⟩ | ⟨hsched, new, hnew⟩
    · rw [← hstep] at hnew
      refine .inl ⟨hsched, ?_⟩
      rw [wokenBy_eq hnew.woken_eq]
      exact hnew
    · rw [← hstep] at hnew
      refine .inr ⟨hsched, ?_⟩
      rw [wokenBy_eq hnew.woken_eq]
      exact hnew
  · have hstep : s.step a = s := if_neg hcan
    have hsame : RunQueued s (s.step a) [] := by
      rw [hstep]
      exact runQueued_nil rfl rfl rfl
    refine .inr ⟨?_, ?_⟩
    · unfold schedules
      rw [Bool.eq_false_of_not_eq_true hcan]
      rfl
    · rw [wokenBy_eq hsame.woken_eq]
      exact hsame

/-! ## Runs -/

theorem woken_step (s : MtFrame) (a : MtStep) : woken (s.step a).log = woken s.log ++ wokenBy s a := by
  rcases step_queue s a with ⟨-, h⟩ | ⟨-, h⟩
  · exact h.woken_eq
  · exact h.woken_eq

theorem runlist_step (s : MtFrame) (a : MtStep) :
    s.runlist ++ wokenBy s a = resumedBy s a ++ (s.step a).runlist := by
  unfold resumedBy
  rcases step_queue s a with ⟨hsched, h⟩ | ⟨hsched, h⟩
  · rcases h.next with ⟨hnil, hrun, -⟩ | hcons
    · rw [if_neg (fun hif => hif.2 hnil), hnil, hrun]
      rfl
    · rw [if_pos ⟨hsched, by rw [hcons]; exact List.cons_ne_nil _ _⟩, hcons]
      rfl
  · rw [if_neg (fun hif => by rw [hsched] at hif; cases hif.1), ← h.runlist_eq]
    rfl

theorem woken_run (s : MtFrame) (steps : List MtStep) :
    woken (steps.foldl MtFrame.step s).log = woken s.log ++ gathered MtFrame.step wokenBy s steps := by
  induction steps generalizing s with
  | nil => exact (List.append_nil _).symm
  | cons a steps ih => rw [List.foldl_cons, ih, woken_step, gathered, List.append_assoc]

/-- The queue along a run. -/
theorem runlist_run (s : MtFrame) (steps : List MtStep) :
    s.runlist ++ gathered MtFrame.step wokenBy s steps =
      gathered MtFrame.step resumedBy s steps ++ (steps.foldl MtFrame.step s).runlist := by
  apply gathered_fifo
  induction steps generalizing s with
  | nil => trivial
  | cons a steps ih => exact ⟨runlist_step s a, ih (s.step a)⟩

/-- As long as threads are runnable, every scheduling resumes one. -/
theorem resumed_length (hlen : schedulings s steps ≤ s.runlist.length) :
    (gathered MtFrame.step resumedBy s steps).length = schedulings s steps := by
  induction steps generalizing s with
  | nil => rfl
  | cons a steps ih =>
    have hstep := congrArg List.length (runlist_step s a)
    rw [List.length_append, List.length_append] at hstep
    rw [schedulings] at hlen
    rw [gathered, schedulings, List.length_append]
    by_cases hsched : schedules s a = true
    · rw [if_pos hsched] at hlen ⊢
      have hne : s.runlist ++ wokenBy s a ≠ [] := by
        intro hnil
        have hempty := congrArg List.length hnil
        rw [List.length_append, List.length_nil] at hempty
        omega
      have hone : (resumedBy s a).length = 1 := by
        rw [resumedBy, if_pos ⟨hsched, hne⟩, List.length_singleton]
      rw [ih (by omega), hone]
    · have hnone : (resumedBy s a).length = 0 := by
        rw [resumedBy, if_neg (fun hif => hsched hif.1), List.length_nil]
      rw [if_neg hsched] at hlen ⊢
      rw [ih (by omega), hnone]

/-- A thread of `_runlist` is in it once, and does not run. -/
theorem Steady.runlist_nodup (h : Steady base s) : s.runlist.Nodup ∧ s.curr_thread ∉ s.runlist := by
  obtain ⟨place, hs, -, -⟩ := h
  have hout : place s.curr_thread = .out := by
    rw [hs.out_iff]
    by_cases hd : s.curr_thread = s.daemon
    · exact .inr (.inl hd)
    · rw [running_of_ne hd]
      exact .inl (Finset.mem_singleton_self _)
  constructor
  · rw [List.nodup_iff_count_le_one]
    intro t
    rw [(hs.queues.seat t).run_count]
    split <;> omega
  · rw [← List.count_eq_zero, (hs.queues.seat _).run_count, hout, if_neg (by decide)]

/-- **No overtaking, and no starvation.**  In every run the threads go on at `ThreadSchdule` in the order in
which they came into `_runlist`.  From any state that is reached, the next `n` times that a thread hands over, the first `n` threads of
`_runlist` go on, one after the other, and those behind them keep their order; a runnable thread is in `_runlist` once
and does not run in the meantime. -/
theorem runlist_fifo {made : ℕ} (hpos : 1 ≤ made) (hmade : made ≤ DEFAULT_THREAD_NUM) (max_num : ℕ) (waitnum : ℤ)
    (steps more : List MtStep) :
    let init := MtFrame.initFrame made max_num waitnum
    let s := steps.foldl MtFrame.step init
    let n := schedulings s more
    woken s.log = gathered MtFrame.step resumedBy init steps ++ s.runlist ∧
      s.runlist.Nodup ∧ s.curr_thread ∉ s.runlist ∧
      (n ≤ s.runlist.length →
        gathered MtFrame.step resumedBy s more = s.runlist.take n ∧
        s.runlist.drop n <+: (more.foldl MtFrame.step s).runlist) := by
  intro init s n
  obtain ⟨hnodup, hcurr⟩ := ((Steady.init hpos hmade max_num waitnum).run steps).runlist_nodup
  refine ⟨?_, hnodup, hcurr, fun hn => ?_⟩
  · have hwoken : woken s.log = [] ++ gathered MtFrame.step wokenBy init steps := woken_run init steps
    have hqueue : [] ++ gathered MtFrame.step wokenBy init steps =
        gathered MtFrame.step resumedBy init steps ++ s.runlist := runlist_run init steps
    rw [hwoken, hqueue]
  · have hqueue := runlist_run s more
    have hlen : (gathered MtFrame.step resumedBy s more).length = n := resumed_length hn
    have htake := congrArg (List.take n) hqueue
    have hdrop := congrArg (List.drop n) hqueue
    rw [List.take_append_of_le_length hn, List.take_left' hlen] at htake
    rw [List.drop_append_of_le_length hn, List.drop_left' hlen] at hdrop
    exact ⟨htake.symm, _, hdrop⟩

/-- Two threads are created; they go on when the primordial thread, here 4, sleeps and the first of them ends. -/
theorem runlist_fifo_two :
    gathered MtFrame.step resumedBy
      ([.createThread true, .createThread true].foldl MtFrame.step (MtFrame.initFrame 4 800000 0))
      [.sleep 10 5, .exit 0] = [1, 2] :=
  ((runlist_fifo (show 1 ≤ 4 by decide) (by decide) 800000 0 [.createThread true, .createThread true]
    [.sleep 10 5, .exit 0]).2.2.2 (by decide)).1

/-! ## Waiting -/

/-- A thread is in `_sleeplist`, and in `_iolist` if `io` says so, until the given time. -/
structure Waits (s : MtFrame) (t : ThreadId) (io : Bool) (until_time : ℕ) : Prop where
  sleep_flag : s.flag t .sleepList = true
  io_flag : s.flag t .ioList = io
  wakeup_eq : s.wakeup_time t = until_time

/-- How long the running thread waits by a step, and whether an event can end it. -/
def suspends : MtStep → Option (Bool × ℕ)
  | .sleep ms now => some (false, MtFrame.clockAdd now ms)
  | .kqueueSchedule true timeout now => some (true, MtFrame.clockAdd now timeout)
  | .waitNotify timeout now => some (true, MtFrame.clockAdd now timeout)
  | _ => none

/-- A step that may end the waiting of a thread: the time has come, or there is an event for it. -/
def MayEnd (t : ThreadId) (io : Bool) (until_time : ℕ) : MtStep → Prop
  | .wakeupTimeout now => until_time ≤ now
  | .eventNotify owner => io = true ∧ owner = some t
  | .notifyThread thread => io = true ∧ thread = some t
  | _ => False

/-- What a thread waits for has not changed. -/
structure SameWait (s s' : MtFrame) (t : ThreadId) : Prop where
  sleep_flag_eq : s'.flag t .sleepList = s.flag t .sleepList
  io_flag_eq : s'.flag t .ioList = s.flag t .ioList
  wakeup_eq : s'.wakeup_time t = s.wakeup_time t

variable {io : Bool} {w : ℕ}

theorem SameWait.refl (s : MtFrame) (t : ThreadId) : SameWait s s t := ⟨rfl, rfl, rfl⟩

theorem SameWait.trans (h₁ : SameWait s s' t) (h₂ : SameWait s' s'' t) : SameWait s s'' t where
  sleep_flag_eq := h₂.sleep_flag_eq.trans h₁.sleep_flag_eq
  io_flag_eq := h₂.io_flag_eq.trans h₁.io_flag_eq
  wakeup_eq := h₂.wakeup_eq.trans h₁.wakeup_eq

theorem Waits.congr (h : Waits s t io w) (hsame : SameWait s s' t) : Waits s' t io w where
  sleep_flag := hsame.sleep_flag_eq.trans h.sleep_flag
  io_flag := hsame.io_flag_eq.trans h.io_flag
  wakeup_eq := hsame.wakeup_eq.trans h.wakeup_eq

theorem sameWait_setFlag (s : MtFrame) (t u : ThreadId) (hs : .sleepList ≠ f) (hio : .ioList ≠ f) :
    SameWait s (s.setFlag u f) t :=
  ⟨setFlag_of_ne s u t hs, setFlag_of_ne s u t hio, rfl⟩

theorem sameWait_unsetFlag (s : MtFrame) (t u : ThreadId) (hs : .sleepList ≠ f) (hio : .ioList ≠ f) :
    SameWait s (s.unsetFlag u f) t :=
  ⟨unsetFlag_of_ne s u t hs, unsetFlag_of_ne s u t hio, rfl⟩

theorem sameWait_insertRunable (s : MtFrame) (t u : ThreadId) : SameWait s (s.insertRunable u) t :=
  (sameWait_setFlag s t u (by decide) (by decide)).trans ⟨rfl, rfl, rfl⟩

theorem sameWait_removeRunable (s : MtFrame) (t u : ThreadId) : SameWait s (s.removeRunable u) t :=
  (sameWait_unsetFlag s t u (by decide) (by decide)).trans ⟨rfl, rfl, rfl⟩

theorem sameWait_insertPend (s : MtFrame) (t u : ThreadId) : SameWait s (s.insertPend u) t :=
  (sameWait_setFlag s t u (by decide) (by decide)).trans ⟨rfl, rfl, rfl⟩

theorem sameWait_removePend (s : MtFrame) (t u : ThreadId) : SameWait s (s.removePend u) t :=
  (sameWait_unsetFlag s t u (by decide) (by decide)).trans ⟨rfl, rfl, rfl⟩

theorem sameWait_of_eq (hflag : s'.flag t = s.flag t) (hwake : s'.wakeup_time t = s.wakeup_time t) :
    SameWait s s' t :=
  ⟨congrFun hflag _, congrFun hflag _, hwake⟩

theorem sameWait_setWakeupTime (s : MtFrame) (hne : t ≠ u) (time : ℕ) : SameWait s (s.setWakeupTime u time) t :=
  sameWait_of_eq rfl (Function.update_of_ne hne _ _)

theorem sameWait_insertSleep (s : MtFrame) (hne : t ≠ u) : SameWait s (s.insertSleep u) t :=
  sameWait_of_eq (Function.update_of_ne hne _ _) rfl

theorem sameWait_removeSleep (s : MtFrame) (hne : t ≠ u) : SameWait s (s.removeSleep u) t :=
  sameWait_of_eq (Function.update_of_ne hne _ _) rfl

theorem sameWait_insertIoWait (s : MtFrame) (hne : t ≠ u) : SameWait s (s.insertIoWait u) t :=
  sameWait_of_eq ((Function.update_of_ne hne _ _).trans (Function.update_of_ne hne _ _)) rfl

theorem sameWait_removeIoWait (s : MtFrame) (hne : t ≠ u) : SameWait s (s.removeIoWait u) t :=
  sameWait_of_eq ((Function.update_of_ne hne _ _).trans (Function.update_of_ne hne _ _)) rfl

theorem sameWait_freeThread (s : MtFrame) (hne : t ≠ u) : SameWait s (s.freeThread u) t := by
  have hflag : ((s.reset u).setFlag u .freeList).flag t = s.flag t :=
    (Function.update_of_ne hne _ _).trans (Function.update_of_ne hne _ _)
  have hwake : (s.reset u).wakeup_time t = s.wakeup_time t := Function.update_of_ne hne _ _
  unfold MtFrame.freeThread
  dsimp only
  split <;> exact sameWait_of_eq hflag hwake

theorem sameWait_switchTo (s : MtFrame) (t u : ThreadId) : SameWait s (s.switchTo u) t := by
  rw [switchTo_eq]
  exact ⟨rfl, rfl, rfl⟩

theorem sameWait_threadSchdule (s : MtFrame) (t : ThreadId) : SameWait s s.threadSchdule t := by
  unfold MtFrame.threadSchdule
  split
  · exact sameWait_switchTo s t s.daemon
  · rename_i u rest hrun
    exact (sameWait_removeRunable s t u).trans (sameWait_switchTo _ t u)

theorem sameWait_saveContext (s : MtFrame) (t u : ThreadId) (c : Context) : SameWait s (s.saveContext u c) t :=
  ⟨rfl, rfl, rfl⟩

theorem sameWait_switchContext (s : MtFrame) (t : ThreadId) : SameWait s s.switchContext t :=
  (sameWait_saveContext s t s.curr_thread .inside).trans (sameWait_threadSchdule _ t)

theorem sameWait_createThread (s : MtFrame) (t : ThreadId) (start : ThreadStart) (runable initial : Bool) :
    SameWait s (s.createThread start runable initial).1 t := by
  have halloc : SameWait s (s.allocThread initial).1 t := by
    unfold MtFrame.allocThread
    split
    · exact (sameWait_unsetFlag s t _ (by decide) (by decide)).trans ⟨rfl, rfl, rfl⟩
    · split
      · exact SameWait.refl s t
      · split <;> exact ⟨rfl, rfl, rfl⟩
  unfold MtFrame.createThread
  split
  · rename_i s₁ heq
    rw [heq] at halloc
    exact halloc
  · rename_i s₁ u heq
    rw [heq] at halloc
    have hstart : SameWait s₁ { s₁ with start := Function.update s₁.start u (some start) } t := ⟨rfl, rfl, rfl⟩
    cases runable with
    | false => exact halloc.trans hstart
    | true => exact (halloc.trans hstart).trans (sameWait_insertRunable _ t u)

theorem sameWait_startSubs (p t : ThreadId) (list : List ThreadId) (s : MtFrame) :
    SameWait s (MtFrame.startSubs p list s) t := by
  induction list generalizing s with
  | nil => exact SameWait.refl s t
  | cons sub list ih =>
    have hadd : SameWait s (s.addSubThread p sub) t := by
      unfold MtFrame.addSubThread
      dsimp only
      split
      · exact sameWait_setFlag _ t sub (by decide) (by decide)
      · exact (sameWait_setFlag _ t sub (by decide) (by decide)).trans ⟨rfl, rfl, rfl⟩
    exact (hadd.trans (sameWait_insertRunable _ t sub)).trans (ih _)

theorem sameWait_freeSubs {list : List ThreadId} (hnot : t ∉ list) (s : MtFrame) :
    SameWait s (MtFrame.freeSubs list s) t := by
  induction list generalizing s with
  | nil => exact SameWait.refl s t
  | cons sub list ih =>
    rw [List.mem_cons, not_or] at hnot
    exact (sameWait_freeThread s hnot.1).trans (ih hnot.2 _)

theorem sameWait_wakeupParent (s : MtFrame) (t u : ThreadId) : SameWait s (s.wakeupParent u) t := by
  unfold MtFrame.wakeupParent
  split
  · exact SameWait.refl s t
  · rename_i p hp
    have hleave : SameWait s (s.removeSubThread p u) t := by
      unfold MtFrame.removeSubThread
      dsimp only
      split
      · exact (sameWait_unsetFlag _ t u (by decide) (by decide)).trans ⟨rfl, rfl, rfl⟩
      · exact sameWait_unsetFlag _ t u (by decide) (by decide)
    dsimp only
    split
    · exact (hleave.trans (sameWait_removePend _ t p)).trans (sameWait_insertRunable _ t p)
    · exact hleave

theorem sameWait_finishStart (s : MtFrame) (rc : ℤ) : SameWait s (s.finishStart rc) t := by
  unfold MtFrame.finishStart
  split <;> exact ⟨rfl, rfl, rfl⟩

/-- The turns of `WakeupTimeout` do not reach a thread whose time has not come. -/
theorem Waits.wakeupLoop (h : Waits s t io w) {now : ℕ} (hnow : now < w) (turns : ℕ) :
    Waits (MtFrame.wakeupLoop now turns s) t io w := by
  induction turns generalizing s with
  | zero => exact h
  | succ turns ih =>
    unfold MtFrame.wakeupLoop
    split
    · exact h
    · rename_i u htop
      split
      · rename_i hpast
        have hne : t ≠ u := by
          rintro rfl
          rw [h.wakeup_eq] at hpast
          omega
        apply ih
        refine h.congr (SameWait.trans ?_ (sameWait_insertRunable _ t u))
        split
        · exact sameWait_removeIoWait s hne
        · exact sameWait_removeSleep s hne
      · exact h

/-- A thread that waits is live, does not run, and is not in `_runlist`. -/
theorem Waits.whereabouts (h : Waits s t io w) (hs : Sound base s place loose) :
    Live s t ∧ t ∉ loose ∧ t ≠ s.daemon ∧ t ∉ s.runlist := by
  have hplace : (place t).isSleeping = true := by rw [← (hs.queues.seat t).sleep_flag, h.sleep_flag]
  have hne : place t ≠ .out := by
    intro hout
    rw [hout] at hplace
    cases hplace
  obtain ⟨hlive, hdaemon⟩ := hs.live_of_place hne
  refine ⟨hlive, fun hmem => hne (hs.place_of_loose hmem), hdaemon, ?_⟩
  rw [← List.count_eq_zero, (hs.queues.seat t).run_count, if_neg]
  intro hrun
  rw [hrun] at hplace
  cases hplace

theorem Waits.ne_curr (h : Waits s t io w) (hsteady : Steady base s) : t ≠ s.curr_thread := by
  obtain ⟨place, hs, -, -⟩ := hsteady
  obtain ⟨-, hloose, hdaemon, -⟩ := h.whereabouts hs
  by_cases hd : s.curr_thread = s.daemon
  · rw [hd]
    exact hdaemon
  · rw [running_of_ne hd] at hloose
    exact fun heq => hloose (Finset.mem_singleton.mpr heq)

theorem Waits.execAllTask (h : Waits s t io w) (hsteady : Steady base s) (tasks : List (TaskId × Bool)) :
    Waits (s.execAllTask tasks) t io w := by
  obtain ⟨place, hs, hcontext, -⟩ := hsteady
  obtain ⟨hlive, -⟩ := h.whereabouts hs
  have hcalled : Sound base (s.record (.called s.curr_thread (tasks.map Prod.fst))) place (running s) := by
    apply hs.record
    · exact not_concerns_call hcontext (by simp [concerns, eq_comm])
    · intro p heq
      cases heq
    · exact hs.results
  obtain ⟨s₁, subs, ok, hcreate, hc, -⟩ := hcalled.createSubs tasks []
  rw [List.nil_append] at hcreate
  have hwake : s₁.wakeup_time = s.wakeup_time := by
    rw [hc.rest]
    rfl
  have hmade : SameWait s s₁ t :=
    ⟨hc.flag_eq t .sleepList (by decide), hc.flag_eq t .ioList (by decide), congrFun hwake t⟩
  unfold MtFrame.execAllTask
  dsimp only
  split
  · exact h.congr ⟨rfl, rfl, rfl⟩
  · rw [hcreate]
    cases ok with
    | false =>
      have hnot : t ∉ subs := fun hmem => hc.not_live t hmem hlive
      exact h.congr (hmade.trans ((sameWait_freeSubs hnot s₁).trans ⟨rfl, rfl, rfl⟩))
    | true =>
      have hstarted := hmade.trans (sameWait_startSubs s.curr_thread t subs s₁)
      have hsaved := hstarted.trans
        (sameWait_saveContext _ t (MtFrame.startSubs s.curr_thread subs s₁).curr_thread .waiting)
      exact h.congr ((hsaved.trans (sameWait_insertPend _ t _)).trans (sameWait_threadSchdule _ t))

/-- An event that does not end the waiting is for another thread. -/
theorem Waits.ne_of_event (h : Waits s t io w) {u : ThreadId} (hio : s.flag u .ioList = true)
    (hnot : ¬(io = true ∧ u = t)) : t ≠ u := by
  rintro rfl
  exact hnot ⟨h.io_flag.symm.trans hio, rfl⟩

/-- What one step does to a thread that waits. -/
theorem Waits.step (h : Waits s t io w) (hsteady : Steady base s) (hnot : ¬ MayEnd t io w a) :
    Waits (s.step a) t io w := by
  have hcurr := h.ne_curr hsteady
  unfold MtFrame.step
  split
  swap
  · exact h
  cases a with
  | createThread initial => exact h.congr (sameWait_createThread s t .entry true initial)
  | sleep ms now =>
    have hset := (sameWait_setWakeupTime s hcurr (MtFrame.clockAdd now ms)).trans
      (sameWait_saveContext _ t s.curr_thread .inside)
    exact h.congr ((hset.trans (sameWait_insertSleep _ hcurr)).trans (sameWait_threadSchdule _ t))
  | kqueueSchedule added timeout now =>
    have hset := sameWait_setWakeupTime s hcurr (MtFrame.clockAdd now timeout)
    cases added with
    | false => exact h.congr hset
    | true => exact h.congr ((hset.trans (sameWait_insertIoWait _ hcurr)).trans (sameWait_switchContext _ t))
  | waitNotify timeout now =>
    have hset := sameWait_setWakeupTime s hcurr (MtFrame.clockAdd now timeout)
    exact h.congr ((hset.trans (sameWait_insertIoWait _ hcurr)).trans (sameWait_switchContext _ t))
  | execAllTask tasks => exact h.execAllTask hsteady tasks
  | notifyThread thread =>
    cases thread with
    | none => exact h
    | some u =>
      simp only [MtFrame.act, MtFrame.notifyThread]
      split
      · rename_i hio
        have hne := h.ne_of_event hio fun heq => hnot ⟨heq.1, congrArg some heq.2⟩
        have hout := sameWait_removeIoWait s hne
        split
        · exact h.congr ((hout.trans (sameWait_saveContext _ t _ .inside)).trans (sameWait_switchTo _ t u))
        · exact h.congr (hout.trans (sameWait_insertRunable _ t u))
      · exact h
  | eventNotify owner =>
    cases owner with
    | none => exact h
    | some u =>
      simp only [MtFrame.act, MtFrame.eventNotify]
      split
      · rename_i hio
        have hne := h.ne_of_event hio fun heq => hnot ⟨heq.1, congrArg some heq.2⟩
        exact h.congr ((sameWait_removeIoWait s hne).trans (sameWait_insertRunable _ t u))
      · exact h
  | swapDaemonThread =>
    simp only [MtFrame.act, MtFrame.swapDaemonThread]
    split
    · have hsave := sameWait_saveContext s t s.curr_thread .inside
      exact h.congr ((hsave.trans (sameWait_insertRunable _ t _)).trans (sameWait_switchTo _ t _))
    · exact h
  | exit rc =>
    simp only [MtFrame.act, MtFrame.exit]
    refine h.congr (SameWait.trans ?_ (sameWait_threadSchdule _ t))
    refine SameWait.trans ?_ (sameWait_freeThread _ hcurr)
    split
    · exact (sameWait_finishStart s rc).trans (sameWait_wakeupParent _ t _)
    · exact sameWait_finishStart s rc
  | wakeupTimeout now => exact h.wakeupLoop (Nat.lt_of_not_le hnot) _
  | loopEnd => exact h.congr (sameWait_switchContext s t)

theorem Waits.run (h : Waits s t io w) (hsteady : Steady base s) (hnot : ∀ a ∈ steps, ¬ MayEnd t io w a) :
    Waits (steps.foldl MtFrame.step s) t io w := by
  induction steps generalizing s with
  | nil => exact h
  | cons a steps ih =>
    rw [List.forall_mem_cons] at hnot
    exact ih (h.step hsteady hnot.1) (hsteady.step a) hnot.2

/-- The running thread begins to wait. -/
theorem waits_of_suspends (hsteady : Steady base s) (hne : s.curr_thread ≠ s.daemon) (ha : suspends a = some (io, w)) :
    Waits (s.step a) s.curr_thread io w := by
  have hio : s.flag s.curr_thread .ioList = false := by
    obtain ⟨place, hs, -, -⟩ := hsteady
    rw [running_of_ne hne] at hs
    rw [(hs.queues.seat _).io_flag, hs.place_of_loose (Finset.mem_singleton_self _)]
    rfl
  have hwait : Waits ((s.setWakeupTime s.curr_thread w).insertIoWait s.curr_thread) s.curr_thread true w := by
    refine ⟨?_, ?_, Function.update_self _ _ _⟩
    · exact (setFlag_flag _ s.curr_thread s.curr_thread .sleepList .sleepList).trans (if_pos ⟨rfl, rfl⟩)
    · exact (setFlag_of_ne _ s.curr_thread s.curr_thread (by decide)).trans
        ((setFlag_flag _ s.curr_thread s.curr_thread .ioList .ioList).trans (if_pos ⟨rfl, rfl⟩))
  have hcan : s.canStep a = true := by
    cases a <;> first | exact decide_eq_true hne | cases ha
  have hstep : s.step a = s.act a := if_pos hcan
  rw [hstep]
  cases a with
  | sleep ms now =>
    cases ha
    have hset : Waits (((s.setWakeupTime s.curr_thread (MtFrame.clockAdd now ms)).saveContext s.curr_thread
        .inside).insertSleep s.curr_thread) s.curr_thread false (MtFrame.clockAdd now ms) := by
      refine ⟨?_, ?_, Function.update_self _ _ _⟩
      · exact (setFlag_flag _ s.curr_thread s.curr_thread .sleepList .sleepList).trans (if_pos ⟨rfl, rfl⟩)
      · exact (setFlag_of_ne _ s.curr_thread s.curr_thread (by decide)).trans hio
    exact hset.congr (sameWait_threadSchdule _ _)
  | kqueueSchedule added timeout now =>
    cases added with
    | false => cases ha
    | true =>
      cases ha
      exact hwait.congr (sameWait_switchContext _ _)
  | waitNotify timeout now =>
    cases ha
    exact hwait.congr (sameWait_switchContext _ _)
  | createThread initial => cases ha
  | execAllTask tasks => cases ha
  | notifyThread thread => cases ha
  | eventNotify owner => cases ha
  | swapDaemonThread => cases ha
  | exit rc => cases ha
  | wakeupTimeout now => cases ha
  | loopEnd => cases ha

/-- **No wait is cut short.**  In every run, when a thread has slept, or waited for input, output or a
notification, and is runnable or running again, its time has come in a turn of `WakeupTimeout`, or, if it did not only
sleep, it has been notified. -/
theorem wait_not_short {made : ℕ} (hpos : 1 ≤ made) (hmade : made ≤ DEFAULT_THREAD_NUM) (max_num : ℕ) (waitnum : ℤ)
    (steps more : List MtStep) {a : MtStep} (ha : suspends a = some (io, w)) :
    let s := steps.foldl MtFrame.step (MtFrame.initFrame made max_num waitnum)
    let s' := more.foldl MtFrame.step (s.step a)
    s.curr_thread ≠ s.daemon → s'.curr_thread = s.curr_thread ∨ s.curr_thread ∈ s'.runlist →
      ∃ b ∈ more, MayEnd s.curr_thread io w b := by
  intro s s' hne hgone
  have hsteady : Steady waitnum s := (Steady.init hpos hmade max_num waitnum).run steps
  by_contra hnot
  push Not at hnot
  have hwaits : Waits s' s.curr_thread io w := (waits_of_suspends hsteady hne ha).run (hsteady.step a) hnot
  have hsteady' : Steady waitnum s' := (hsteady.step a).run more
  rcases hgone with hcurr | hrun
  · exact hwaits.ne_curr hsteady' hcurr.symm
  · obtain ⟨place, hs, -, -⟩ := hsteady'
    exact (hwaits.whereabouts hs).2.2.2 hrun

/-- The primordial thread, here 4, sleeps until 15 and is runnable again after a turn at 20. -/
theorem wait_not_short_slept : ∃ b ∈ [MtStep.wakeupTimeout 20], MayEnd 4 false 15 b :=
  wait_not_short (show 1 ≤ 4 by decide) (by decide) 800000 0 [] [.wakeupTimeout 20] (a := .sleep 10 5) rfl (by decide)
    (.inr (by decide))

/-! ## Threads that are given back -/

/-- No thread that has been given back is used: the thread that runs is live, and so are those in the queues, those that
are waited for and those that wait for them; the free list has the others, each once.  Besides the threads of
`_total_num`, which has the daemon, there is the primordial thread. -/
structure ThreadsKept (s : MtFrame) : Prop where
  curr : Live s s.curr_thread
  queued : ∀ t, t ∈ s.runlist ∨ InSleeplist s t ∨ t ∈ s.iolist ∨ t ∈ s.pend_list → Live s t ∧ t ≠ s.daemon
  subs : ∀ u p, u ∈ s.sub_list p → Live s u ∧ Live s p
  free : s.freelist.Nodup ∧ ∀ t ∈ s.freelist, ¬ Live s t
  total : (liveSet s).card + s.freelist.length = s.total_num + 1
  total_le : s.total_num ≤ max DEFAULT_THREAD_NUM s.max_num

theorem Steady.kept (h : Steady base s) : ThreadsKept s := by
  obtain ⟨place, hs, -, hcurr⟩ := h
  refine ⟨hcurr, ?_, ?_, ⟨hs.pool.nodup, ?_⟩, hs.pool.live_card, hs.pool.total_le⟩
  · intro t hqueued
    have hseat := hs.queues.seat t
    refine hs.live_of_place ?_
    intro hout
    rw [hout] at hseat
    rcases hqueued with hrun | hsleep | hio | hpend
    · exact List.count_eq_zero.mp hseat.run_count hrun
    · rw [hs.queues.inSleeplist_iff, hout] at hsleep
      cases hsleep
    · exact List.count_eq_zero.mp hseat.io_count hio
    · exact List.count_eq_zero.mp hseat.pend_count hpend
  · intro u p hsub
    refine ⟨hs.family.live u p hsub, ?_⟩
    by_contra hdead
    rw [(hs.idle p hdead).1] at hsub
    cases hsub
  · intro t hfree hlive
    have hflag := hlive.2
    rw [(hs.pool.free t hfree).2] at hflag
    cases hflag

/-- In every run of the scheduler. -/
theorem threadsKept_run {made : ℕ} (hpos : 1 ≤ made) (hmade : made ≤ DEFAULT_THREAD_NUM) (max_num : ℕ) (waitnum : ℤ)
    (steps : List MtStep) : ThreadsKept (steps.foldl MtFrame.step (MtFrame.initFrame made max_num waitnum)) :=
  ((Steady.init hpos hmade max_num waitnum).run steps).kept

theorem threadsKept_run_sleep :
    ThreadsKept ([.createThread true, .sleep 10 5].foldl MtFrame.step (MtFrame.initFrame 3 800000 0)) :=
  threadsKept_run (by decide) (by decide) 800000 0 _

end FStack.Analysis
