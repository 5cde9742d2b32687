import FStack.Analysis.ThreadPlaces

/-!
# Threads that wait for their sub-threads

A call of `mt_exec_all_task` is open from the event that it was called to the event that it returns.
`JoinAt` accounts for an open call: its tasks are those that have been processed since, and those of the
sub-threads that are left.  `Sound` collects what the frame keeps, with the threads that are in no queue
at the moment; the lemmas here say how the operations of the frame change it.
-/

set_option autoImplicit false

namespace FStack.Analysis

open FStack.Prelude FStack.Model

variable {tasks : List TaskId} {since : List MtEvent}

/-- The tasks of the open call of `mt_exec_all_task` by `p`, and what has happened since, if there is an
open call. -/
def openCall (p : ThreadId) : List MtEvent → Option (List TaskId × List MtEvent)
  | [] => none
  | .called t tasks :: log =>
    if t = p then some (tasks, [])
    else (openCall p log).map fun c => (c.1, .called t tasks :: c.2)
  | .returned t rc :: log =>
    if t = p then none else (openCall p log).map fun c => (c.1, .returned t rc :: c.2)
  | e :: log => (openCall p log).map fun c => (c.1, e :: c.2)

/-- The tasks whose `Process` has begun in sub-threads of `p`. -/
def startedBy (p : ThreadId) (log : List MtEvent) : List TaskId :=
  log.filterMap fun e =>
    match e with
    | .started parent task => if parent = some p then some task else none
    | _ => none

/-- The tasks whose `Process` has returned in sub-threads of `p`. -/
def processedBy (p : ThreadId) (log : List MtEvent) : List TaskId :=
  log.filterMap fun e =>
    match e with
    | .processed parent task _ => if parent = some p then some task else none
    | _ => none

/-- What the `Process` of a task has returned the last time. -/
def resultOf : List MtEvent → TaskId → Option ℤ
  | [], _ => none
  | .processed _ task rc :: log, task' => if task' = task then some rc else resultOf log task'
  | _ :: log, task' => resultOf log task'

/-- Whether an event has to do with a call of `mt_exec_all_task` by `p`. -/
def concerns (p : ThreadId) : MtEvent → Bool
  | .started parent _ => parent = some p
  | .processed parent _ _ => parent = some p
  | .called t _ => t = p
  | .returned t _ => t = p
  | .runable t => t = p

/-- When `mt_exec_all_task` of `p` returns 0: every task has been started and processed once since it was
called, and `p` has become runnable once, unless there was nothing to do. -/
def JoinDone (p : ThreadId) (log : List MtEvent) : Prop :=
  ∃ tasks since, openCall p log = some (tasks, since) ∧ tasks.Perm (startedBy p since) ∧
    tasks.Perm (processedBy p since) ∧
    since.count (.runable p) = if tasks = [] then 0 else 1

/-- Every return of 0 is one of a call that is done. -/
def ReturnsOk (log : List MtEvent) : Prop :=
  ∀ p log', (MtEvent.returned p 0 :: log') <:+ log → JoinDone p log'

theorem returnsOk_cons {e : MtEvent} {log : List MtEvent} :
    ReturnsOk (e :: log) ↔ (∀ p, e = .returned p 0 → JoinDone p log) ∧ ReturnsOk log := by
  constructor
  · intro h
    constructor
    · rintro p rfl
      exact h p log List.suffix_rfl
    · intro p log' hsuf
      exact h p log' (hsuf.trans (List.suffix_cons e log))
  · rintro ⟨hfirst, hrest⟩ p log' hsuf
    rcases List.suffix_cons_iff.mp hsuf with heq | hsuf'
    · obtain ⟨rfl, rfl⟩ := List.cons.inj heq
      exact hfirst p rfl
    · exact hrest p log' hsuf'

section Events

variable {p : ThreadId} {e : MtEvent} {log : List MtEvent}

theorem openCall_cons_of_not_concerns (h : concerns p e = false) :
    openCall p (e :: log) = (openCall p log).map fun c => (c.1, e :: c.2) := by
  cases e with
  | called t tasks =>
    have hne : t ≠ p := by simpa [concerns] using h
    rw [openCall, if_neg hne]
  | returned t rc =>
    have hne : t ≠ p := by simpa [concerns] using h
    rw [openCall, if_neg hne]
  | started parent task => rfl
  | processed parent task rc => rfl
  | runable t => rfl

theorem startedBy_cons_of_not_concerns (h : concerns p e = false) :
    startedBy p (e :: log) = startedBy p log := by
  cases e with
  | started parent task =>
    have hne : parent ≠ some p := by simpa [concerns] using h
    simp [startedBy, hne]
  | processed parent task rc => rfl
  | called t tasks => rfl
  | returned t rc => rfl
  | runable t => rfl

theorem processedBy_cons_of_not_concerns (h : concerns p e = false) :
    processedBy p (e :: log) = processedBy p log := by
  cases e with
  | processed parent task rc =>
    have hne : parent ≠ some p := by simpa [concerns] using h
    simp [processedBy, hne]
  | started parent task => rfl
  | called t tasks => rfl
  | returned t rc => rfl
  | runable t => rfl

theorem count_runable_cons_of_not_concerns (h : concerns p e = false) :
    (e :: log).count (.runable p) = log.count (.runable p) := by
  apply List.count_cons_of_ne
  rintro rfl
  simp [concerns] at h

variable {new : List MtEvent}

theorem openCall_append_of_not_concerns (hnew : ∀ e ∈ new, concerns p e = false)
    (hcall : openCall p log = some (tasks, since)) :
    openCall p (new ++ log) = some (tasks, new ++ since) := by
  induction new with
  | nil => exact hcall
  | cons e new ih =>
    rw [List.forall_mem_cons] at hnew
    rw [List.cons_append, openCall_cons_of_not_concerns hnew.1, ih hnew.2]
    rfl

theorem append_of_not_concerns (log : List MtEvent) (hnew : ∀ e ∈ new, concerns p e = false) :
    startedBy p (new ++ log) = startedBy p log ∧ processedBy p (new ++ log) = processedBy p log ∧
      (new ++ log).count (.runable p) = log.count (.runable p) := by
  induction new with
  | nil => exact ⟨rfl, rfl, rfl⟩
  | cons e new ih =>
    rw [List.forall_mem_cons] at hnew
    rw [List.cons_append, startedBy_cons_of_not_concerns hnew.1,
      processedBy_cons_of_not_concerns hnew.1, count_runable_cons_of_not_concerns hnew.1]
    exact ih hnew.2

/-- Threads that become runnable return nothing, and set no result. -/
theorem runable_append (list : List ThreadId) (log : List MtEvent) :
    (ReturnsOk log → ReturnsOk (list.map MtEvent.runable ++ log)) ∧
      resultOf (list.map MtEvent.runable ++ log) = resultOf log := by
  induction list with
  | nil => exact ⟨id, rfl⟩
  | cons t list ih =>
    rw [List.map_cons, List.cons_append]
    refine ⟨?_, ih.2⟩
    intro hlog
    rw [returnsOk_cons]
    exact ⟨fun p heq => (by cases heq), ih.1 hlog⟩

end Events

/-! ## What the frame keeps -/

/-- The task that a thread is for. -/
def taskOf (s : MtFrame) (t : ThreadId) : Option TaskId :=
  match s.start t with
  | some (.taskProcess task) => some task
  | _ => none

/-- The open call of a thread that waits in `mt_exec_all_task`, or has been woken and not yet resumed. -/
structure JoinAt (s : MtFrame) (place : ThreadId → Place) (p : ThreadId) (tasks : List TaskId)
    (since : List MtEvent) : Prop where
  call : openCall p s.log = some (tasks, since)
  nonempty : tasks ≠ []
  started : tasks.Perm (startedBy p since ++
    ((s.sub_list p).filter fun u => s.context u = .start).filterMap (taskOf s))
  processed : tasks.Perm (processedBy p since ++ (s.sub_list p).filterMap (taskOf s))
  runs : since.count (.runable p) = if place p = .pending then 0 else 1
  awake : place p ≠ .pending → s.sub_list p = []
  not_sleeping : (place p).isSleeping = false

/-- Parents and their sub-threads know each other, and a thread with sub-threads waits for them. -/
structure Family (s : MtFrame) : Prop where
  parent_iff : ∀ u p, s.parent u = some p ↔ u ∈ s.sub_list p
  nodup : ∀ p, (s.sub_list p).Nodup
  live : ∀ u p, u ∈ s.sub_list p → Live s u
  flag : ∀ u p, u ∈ s.sub_list p → s.flag u .subList = true
  type : ∀ u p, u ∈ s.sub_list p → s.type u = .subThread
  task : ∀ u p, u ∈ s.sub_list p → (taskOf s u).isSome = true
  waiting : ∀ p, s.sub_list p ≠ [] → s.context p = .waiting

/-- What a frame keeps.  `loose` has the live threads, other than the daemon, that are in no queue. -/
structure Sound (base : ℤ) (s : MtFrame) (place : ThreadId → Place) (loose : Finset ThreadId) :
    Prop where
  queues : Queues base s place
  pool : Pool s
  out_iff : ∀ t, place t = .out ↔ t ∈ loose ∨ t = s.daemon ∨ ¬ Live s t
  loose_live : ∀ t ∈ loose, Live s t ∧ t ≠ s.daemon
  daemon_live : Live s s.daemon
  daemon_context : s.context s.daemon ≠ .waiting
  idle : ∀ t, ¬ Live s t →
    s.sub_list t = [] ∧ s.parent t = none ∧ s.context t = .start ∧ s.flag t .subList = false
  family : Family s
  joins : ∀ p, s.context p = .waiting → ∃ tasks since, JoinAt s place p tasks since
  returns : ReturnsOk s.log
  results : s.result = resultOf s.log

variable {base : ℤ} {s s' : MtFrame} {place : ThreadId → Place} {loose : Finset ThreadId}
  {t u p : ThreadId} {q : Place}

theorem SameThreads.taskOf_eq (hsame : SameThreads s s') (u : ThreadId) : taskOf s' u = taskOf s u := by
  rw [taskOf, taskOf, hsame.start_eq]

theorem Family.congr (hf : Family s) (hsame : SameThreads s s') : Family s' where
  parent_iff u p := by
    rw [hsame.parent_eq, hsame.sub_list_eq]
    exact hf.parent_iff u p
  nodup p := by
    rw [hsame.sub_list_eq]
    exact hf.nodup p
  live u p hu := by
    rw [hsame.sub_list_eq] at hu
    exact (hsame.live_iff u).mpr (hf.live u p hu)
  flag u p hu := by
    rw [hsame.sub_list_eq] at hu
    rw [hsame.sub_flag_eq]
    exact hf.flag u p hu
  type u p hu := by
    rw [hsame.sub_list_eq] at hu
    rw [hsame.type_eq]
    exact hf.type u p hu
  task u p hu := by
    rw [hsame.sub_list_eq] at hu
    rw [hsame.taskOf_eq]
    exact hf.task u p hu
  waiting p hp := by
    rw [hsame.sub_list_eq] at hp
    rw [hsame.context_eq]
    exact hf.waiting p hp

/-- An open call goes on when nothing happens that concerns it. -/
theorem JoinAt.skip {place' : ThreadId → Place} {new : List MtEvent} (hj : JoinAt s place p tasks since)
    (hnew : ∀ e ∈ new, concerns p e = false) (hlog : s'.log = new ++ s.log)
    (hsub : s'.sub_list p = s.sub_list p) (htask : ∀ u ∈ s.sub_list p, taskOf s' u = taskOf s u)
    (hcontext : ∀ u ∈ s.sub_list p, (s'.context u = .start ↔ s.context u = .start))
    (hplace : place' p = place p) : JoinAt s' place' p tasks (new ++ since) := by
  obtain ⟨hst, hpr, hco⟩ := append_of_not_concerns since hnew
  have hfilter : (s.sub_list p).filter (fun u => s'.context u = .start) =
      (s.sub_list p).filter (fun u => s.context u = .start) := by
    apply List.filter_congr
    intro u hu
    simpa using hcontext u hu
  have hmap : ∀ l : List ThreadId, (∀ u ∈ l, u ∈ s.sub_list p) →
      l.filterMap (taskOf s') = l.filterMap (taskOf s) := by
    intro l hl
    apply List.filterMap_congr
    intro u hu
    exact htask u (hl u hu)
  constructor
  · rw [hlog]
    exact openCall_append_of_not_concerns hnew hj.call
  · exact hj.nonempty
  · rw [hst, hsub, hfilter, hmap _ (fun u hu => List.mem_of_mem_filter hu)]
    exact hj.started
  · rw [hpr, hsub, hmap _ (fun u hu => hu)]
    exact hj.processed
  · rw [hco, hplace]
    exact hj.runs
  · rw [hplace, hsub]
    exact hj.awake
  · rw [hplace]
    exact hj.not_sleeping

/-- What becomes of the loose threads when one thread moves. -/
def loosen (loose : Finset ThreadId) (t : ThreadId) (q : Place) : Finset ThreadId :=
  if q = .out then insert t loose else loose.erase t

theorem mem_loosen : u ∈ loosen loose t q ↔ (u = t ∧ q = .out) ∨ (u ≠ t ∧ u ∈ loose) := by
  unfold loosen
  by_cases hu : u = t
  · by_cases hq : q = .out
    · simp [hu, hq]
    · simp [hu, hq]
  · by_cases hq : q = .out
    · simp [hu, hq]
    · simp [hu, hq]

/-- One thread moves, and becomes runnable or not. -/
theorem Sound.moved (hs : Sound base s place loose) (hsame : SameThreads s s')
    (hqueues : Queues base s' (Function.update place t q)) (hlive : Live s t) (hdaemon : t ≠ s.daemon)
    (hlog : s'.log = s.log ∨ s'.log = .runable t :: s.log)
    (hjoin : s.context t = .waiting →
      ∃ tasks since, JoinAt s' (Function.update place t q) t tasks since) :
    Sound base s' (Function.update place t q) (loosen loose t q) where
  queues := hqueues
  pool := hs.pool.congr hsame
  out_iff u := by
    rw [mem_loosen, hsame.live_iff, hsame.daemon_eq]
    by_cases hu : u = t
    · subst hu
      simp [hdaemon, hlive]
    · rw [Function.update_of_ne hu, hs.out_iff u]
      simp [hu]
  loose_live u hu := by
    rw [hsame.live_iff, hsame.daemon_eq]
    rcases mem_loosen.mp hu with ⟨rfl, -⟩ | ⟨-, hmem⟩
    · exact ⟨hlive, hdaemon⟩
    · exact hs.loose_live u hmem
  daemon_live := by
    rw [hsame.live_iff, hsame.daemon_eq]
    exact hs.daemon_live
  daemon_context := by
    rw [hsame.context_eq, hsame.daemon_eq]
    exact hs.daemon_context
  idle u hu := by
    rw [hsame.live_iff] at hu
    rw [hsame.sub_list_eq, hsame.parent_eq, hsame.context_eq, hsame.sub_flag_eq]
    exact hs.idle u hu
  family := hs.family.congr hsame
  joins p hp := by
    rw [hsame.context_eq] at hp
    by_cases hpt : p = t
    · subst hpt
      exact hjoin hp
    · obtain ⟨tasks, since, hj⟩ := hs.joins p hp
      have hsub : s'.sub_list p = s.sub_list p := by rw [hsame.sub_list_eq]
      have hcontext : ∀ u ∈ s.sub_list p, (s'.context u = .start ↔ s.context u = .start) := by
        intro u _
        rw [hsame.context_eq]
      rcases hlog with heq | heq
      · exact ⟨tasks, [] ++ since, hj.skip (by simp) heq hsub (fun u _ => hsame.taskOf_eq u) hcontext
          (Function.update_of_ne hpt _ _)⟩
      · have hforeign : ∀ e ∈ [MtEvent.runable t], concerns p e = false := by
          simpa [concerns] using Ne.symm hpt
        have heq' : s'.log = [MtEvent.runable t] ++ s.log := heq
        exact ⟨tasks, [.runable t] ++ since, hj.skip hforeign heq' hsub (fun u _ => hsame.taskOf_eq u)
          hcontext (Function.update_of_ne hpt _ _)⟩
  returns := by
    rcases hlog with heq | heq
    · rw [heq]
      exact hs.returns
    · rw [heq, returnsOk_cons]
      exact ⟨fun p h => (by cases h), hs.returns⟩
  results := by
    rw [hsame.result_eq, hs.results]
    rcases hlog with heq | heq
    · rw [heq]
    · rw [heq]
      rfl

theorem Sound.place_of_loose (hs : Sound base s place loose) (ht : t ∈ loose) : place t = .out :=
  (hs.out_iff t).mpr (Or.inl ht)

/-- A thread in a queue is live, and not the daemon. -/
theorem Sound.live_of_place (hs : Sound base s place loose) (ht : place t ≠ .out) :
    Live s t ∧ t ≠ s.daemon := by
  have hnot := mt (hs.out_iff t).mpr ht
  simp only [not_or, not_not] at hnot
  exact ⟨hnot.2.2, hnot.2.1⟩

/-- A thread that sleeps does not wait in `mt_exec_all_task`. -/
theorem Sound.context_of_sleeping (hs : Sound base s place loose) (ht : (place t).isSleeping = true) :
    s.context t ≠ .waiting := by
  intro hwait
  obtain ⟨tasks, since, hj⟩ := hs.joins t hwait
  rw [hj.not_sleeping] at ht
  cases ht

theorem Sound.insertRunable (hs : Sound base s place loose) (ht : t ∈ loose)
    (hcontext : s.context t ≠ .waiting) :
    Sound base (s.insertRunable t) (Function.update place t .runnable) (loose.erase t) := by
  obtain ⟨hlive, hdaemon⟩ := hs.loose_live t ht
  exact hs.moved (sameThreads_insertRunable s t) (hs.queues.insertRunable (hs.place_of_loose ht)) hlive
    hdaemon (Or.inr rfl) (fun hwait => absurd hwait hcontext)

/-- The first runnable thread leaves its queue; if it waits in `mt_exec_all_task`, it has no sub-threads
left. -/
theorem Sound.removeRunable (hs : Sound base s place loose) {rest : List ThreadId}
    (hrun : s.runlist = t :: rest) :
    Sound base (s.removeRunable t) (Function.update place t .out) (insert t loose) := by
  have hplace : place t = .runnable := by
    by_contra hne
    have hcount := (hs.queues.seat t).run_count
    rw [hrun, if_neg hne, List.count_cons_self] at hcount
    omega
  obtain ⟨hlive, hdaemon⟩ := hs.live_of_place (t := t) (by simp [hplace])
  apply hs.moved (sameThreads_removeRunable s t) (hs.queues.removeRunable hrun) hlive hdaemon
    (Or.inl rfl)
  intro hwait
  obtain ⟨tasks, since, hj⟩ := hs.joins t hwait
  refine ⟨tasks, since, hj.call, hj.nonempty, hj.started, hj.processed, ?_, ?_, ?_⟩
  · have hruns := hj.runs
    rw [hplace] at hruns
    simpa using hruns
  · intro _
    exact hj.awake (by simp [hplace])
  · simp [Place.isSleeping]

theorem Sound.room (hs : Sound base s place loose) (ht : t ∈ loose) :
    s.sleeplist.count < s.sleeplist.max := by
  apply hs.pool.room hs.queues.indexed (t := t)
  · intro u hu
    apply (hs.live_of_place _).1
    intro hout
    have hseat := (hs.queues.seat u).sleep_index.mp hu
    simp [hout, Place.isSleeping] at hseat
  · exact (hs.loose_live t ht).1
  · by_contra hne
    have hseat := (hs.queues.seat t).sleep_index.mp hne
    simp [hs.place_of_loose ht, Place.isSleeping] at hseat

theorem Sound.insertSleep (hs : Sound base s place loose) (ht : t ∈ loose)
    (hcontext : s.context t ≠ .waiting) :
    Sound base (s.insertSleep t) (Function.update place t (.sleeping false)) (loose.erase t) := by
  obtain ⟨hlive, hdaemon⟩ := hs.loose_live t ht
  exact hs.moved (sameThreads_insertSleep hs.queues.indexed t)
    (hs.queues.insertSleep (hs.place_of_loose ht) (hs.room ht)) hlive hdaemon (Or.inl rfl)
    (fun hwait => absurd hwait hcontext)

theorem Sound.insertIoWait (hs : Sound base s place loose) (ht : t ∈ loose)
    (hcontext : s.context t ≠ .waiting) :
    Sound base (s.insertIoWait t) (Function.update place t (.sleeping true)) (loose.erase t) := by
  obtain ⟨hlive, hdaemon⟩ := hs.loose_live t ht
  exact hs.moved (sameThreads_insertIoWait hs.queues.indexed t)
    (hs.queues.insertIoWait (hs.place_of_loose ht) (hs.room ht)) hlive hdaemon (Or.inl rfl)
    (fun hwait => absurd hwait hcontext)

theorem Sound.removeSleep (hs : Sound base s place loose) (ht : place t = .sleeping false) :
    Sound base (s.removeSleep t) (Function.update place t .out) (insert t loose) := by
  obtain ⟨hlive, hdaemon⟩ := hs.live_of_place (t := t) (by simp [ht])
  have hcontext := hs.context_of_sleeping (t := t) (by simp [ht, Place.isSleeping])
  exact hs.moved (sameThreads_removeSleep hs.queues.indexed t) (hs.queues.removeSleep ht) hlive hdaemon
    (Or.inl rfl) (fun hwait => absurd hwait hcontext)

theorem Sound.removeIoWait (hs : Sound base s place loose) (ht : place t = .sleeping true) :
    Sound base (s.removeIoWait t) (Function.update place t .out) (insert t loose) := by
  obtain ⟨hlive, hdaemon⟩ := hs.live_of_place (t := t) (by simp [ht])
  have hcontext := hs.context_of_sleeping (t := t) (by simp [ht, Place.isSleeping])
  exact hs.moved (sameThreads_removeIoWait hs.queues.indexed t) (hs.queues.removeIoWait ht) hlive hdaemon
    (Or.inl rfl) (fun hwait => absurd hwait hcontext)

/-! ## Resuming a thread -/

/-- A thread in no queue has no sub-threads. -/
theorem Sound.sub_list_of_out (hs : Sound base s place loose) (ht : place t = .out) :
    s.sub_list t = [] := by
  by_contra hne
  obtain ⟨tasks, since, hj⟩ := hs.joins t (hs.family.waiting t hne)
  exact hne (hj.awake (by simp [ht]))

/-- The frame after `t` has been resumed, if `new` has happened at once. -/
def resumed (s : MtFrame) (t : ThreadId) (new : List MtEvent) : MtFrame :=
  { s with
    curr_thread := t
    state := Function.update s.state t .running
    context := Function.update s.context t .inside
    log := new ++ s.log }

/-- What happens at once when `t` is resumed. -/
def resumeEvents (s : MtFrame) (t : ThreadId) : List MtEvent :=
  match s.context t with
  | .start =>
    match taskOf s t with
    | some task => [.started (s.parent t) task]
    | none => []
  | .inside => []
  | .waiting => [.returned t 0]

theorem switchTo_eq (s : MtFrame) (t : ThreadId) : s.switchTo t = resumed s t (resumeEvents s t) := by
  unfold MtFrame.switchTo MtFrame.goOn resumeEvents taskOf
  dsimp only [MtFrame.setState]
  cases s.context t with
  | inside => rfl
  | waiting => rfl
  | start =>
    cases s.start t with
    | none => rfl
    | some f => cases f <;> rfl

theorem Sound.resumed {new : List MtEvent} (hs : Sound base s place loose) (ht : place t = .out)
    (hlive : Live s t)
    (hjoins : ∀ p, p ≠ t → s.context p = .waiting →
      ∃ tasks since, JoinAt (resumed s t new) place p tasks since)
    (hreturns : ReturnsOk (new ++ s.log)) (hresults : resultOf (new ++ s.log) = resultOf s.log) :
    Sound base (resumed s t new) place loose where
  queues := ⟨hs.queues.indexed, hs.queues.waitnum, fun u =>
    (hs.queues.seat u).congr ⟨fun _ _ _ => rfl, rfl, Iff.rfl, rfl, rfl⟩⟩
  pool := ⟨hs.pool.live_card, hs.pool.total_le, hs.pool.nodup, hs.pool.free, hs.pool.fresh,
    hs.pool.heap_max⟩
  out_iff := hs.out_iff
  loose_live := hs.loose_live
  daemon_live := hs.daemon_live
  daemon_context := by
    change Function.update s.context t .inside s.daemon ≠ .waiting
    by_cases hd : s.daemon = t
    · rw [hd, Function.update_self]
      simp
    · rw [Function.update_of_ne hd]
      exact hs.daemon_context
  idle u hu := by
    have hut : u ≠ t := by
      rintro rfl
      exact hu hlive
    obtain ⟨h1, h2, h3, h4⟩ := hs.idle u hu
    exact ⟨h1, h2, (Function.update_of_ne hut _ _).trans h3, h4⟩
  family := by
    refine ⟨hs.family.parent_iff, hs.family.nodup, hs.family.live, hs.family.flag, hs.family.type,
      hs.family.task, ?_⟩
    intro p hp
    have hpt : p ≠ t := by
      rintro rfl
      exact hp (hs.sub_list_of_out ht)
    exact (Function.update_of_ne hpt _ _).trans (hs.family.waiting p hp)
  joins p hp := by
    have hpt : p ≠ t := by
      rintro rfl
      change Function.update s.context p .inside p = .waiting at hp
      rw [Function.update_self] at hp
      cases hp
    apply hjoins p hpt
    exact (Function.update_of_ne hpt _ _).symm.trans hp
  returns := hreturns
  results := hs.results.trans hresults.symm

/-- A thread that has begun is no longer among those that have not. -/
theorem perm_filter_start {l : List ThreadId} {context : ThreadId → Context} (hnodup : l.Nodup)
    (ht : t ∈ l) (hstart : context t = .start) :
    (l.filter fun u => context u = .start).Perm
      (t :: l.filter fun u => Function.update context t .inside u = .start) := by
  rw [List.perm_ext_iff_of_nodup (hnodup.filter _)]
  · intro u
    by_cases hu : u = t
    · simp [hu, ht, hstart]
    · simp [hu]
  · rw [List.nodup_cons]
    refine ⟨?_, hnodup.filter _⟩
    simp

/-- The call for which `t` begins its task, and every other one, goes on. -/
theorem JoinAt.begin {task : TaskId} (hs : Sound base s place loose) (hj : JoinAt s place p tasks since)
    (hstart : s.context t = .start) (htask : taskOf s t = some task) :
    JoinAt (Analysis.resumed s t [.started (s.parent t) task]) place p tasks
      (.started (s.parent t) task :: since) := by
  by_cases hp : s.parent t = some p
  · have hmem := (hs.family.parent_iff t p).mp hp
    have hperm := (perm_filter_start (hs.family.nodup p) hmem hstart).filterMap (taskOf s)
    refine ⟨?_, hj.nonempty, ?_, ?_, ?_, hj.awake, hj.not_sleeping⟩
    · change openCall p (.started (s.parent t) task :: s.log) = _
      rw [openCall, hj.call]
      · rfl
      · simp
      · simp
    · have hst : startedBy p (.started (s.parent t) task :: since) = task :: startedBy p since := by
        simp [startedBy, hp]
      rw [List.filterMap_cons_some htask] at hperm
      rw [hst]
      refine (hj.started.trans (hperm.append_left (startedBy p since))).trans ?_
      exact List.perm_middle
    · exact hj.processed
    · exact hj.runs
  · have hforeign : ∀ e ∈ [MtEvent.started (s.parent t) task], concerns p e = false := by
      simpa [concerns] using hp
    have hlog : (Analysis.resumed s t [.started (s.parent t) task]).log =
        [.started (s.parent t) task] ++ s.log := rfl
    refine hj.skip hforeign hlog rfl (fun _ _ => rfl) ?_ rfl
    intro u hu
    have hut : u ≠ t := by
      rintro rfl
      exact hp ((hs.family.parent_iff u p).mpr hu)
    change Function.update s.context t .inside u = .start ↔ _
    rw [Function.update_of_ne hut]

/-- Calls that have nothing to do with `t` go on when it is resumed. -/
theorem JoinAt.resumed {new : List MtEvent} (hj : JoinAt s place p tasks since)
    (hnew : ∀ e ∈ new, concerns p e = false) (hstart : t ∈ s.sub_list p → s.context t ≠ .start) :
    JoinAt (Analysis.resumed s t new) place p tasks (new ++ since) := by
  have hlog : (Analysis.resumed s t new).log = new ++ s.log := rfl
  refine hj.skip hnew hlog rfl (fun _ _ => rfl) ?_ rfl
  intro u hu
  change Function.update s.context t .inside u = .start ↔ _
  by_cases hut : u = t
  · subst hut
    simp [hstart hu]
  · rw [Function.update_of_ne hut]

/-- A thread that `Wait` returns to has no sub-threads left. -/
theorem Sound.joinDone (hs : Sound base s place loose) (ht : place t = .out)
    (hwait : s.context t = .waiting) : JoinDone t s.log := by
  obtain ⟨tasks, since, hj⟩ := hs.joins t hwait
  have hsub := hs.sub_list_of_out ht
  have hstarted := hj.started
  have hprocessed := hj.processed
  have hruns := hj.runs
  rw [hsub, List.filter_nil, List.filterMap_nil, List.append_nil] at hstarted
  rw [hsub, List.filterMap_nil, List.append_nil] at hprocessed
  rw [if_neg (by simp [ht])] at hruns
  exact ⟨tasks, since, hj.call, hstarted, hprocessed, by rw [hruns, if_neg hj.nonempty]⟩

theorem Sound.switchTo (hs : Sound base s place loose) (ht : place t = .out) (hlive : Live s t) :
    Sound base (s.switchTo t) place loose := by
  rw [switchTo_eq]
  unfold resumeEvents
  cases hcontext : s.context t with
  | inside =>
    apply hs.resumed ht hlive
    · intro p _ hp
      obtain ⟨tasks, since, hj⟩ := hs.joins p hp
      exact ⟨tasks, [] ++ since, hj.resumed (by simp) (by simp [hcontext])⟩
    · exact hs.returns
    · rfl
  | waiting =>
    apply hs.resumed ht hlive
    · intro p hpt hp
      obtain ⟨tasks, since, hj⟩ := hs.joins p hp
      refine ⟨tasks, [.returned t 0] ++ since, hj.resumed ?_ (by simp [hcontext])⟩
      simpa [concerns] using Ne.symm hpt
    · rw [List.singleton_append, returnsOk_cons]
      refine ⟨?_, hs.returns⟩
      intro p heq
      cases heq
      exact hs.joinDone ht hcontext
    · rfl
  | start =>
    dsimp only
    cases htask : taskOf s t with
    | none =>
      apply hs.resumed ht hlive
      · intro p _ hp
        obtain ⟨tasks, since, hj⟩ := hs.joins p hp
        refine ⟨tasks, [] ++ since, hj.resumed (by simp) ?_⟩
        intro hmem
        have htask' := hs.family.task t p hmem
        rw [htask] at htask'
        cases htask'
      · exact hs.returns
      · rfl
    | some task =>
      apply hs.resumed ht hlive
      · intro p _ hp
        obtain ⟨tasks, since, hj⟩ := hs.joins p hp
        exact ⟨tasks, _, hj.begin hs hcontext htask⟩
      · rw [List.singleton_append, returnsOk_cons]
        exact ⟨fun p heq => (by cases heq), hs.returns⟩
      · rfl

/-- The running thread, unless it is the daemon. -/
def running (s : MtFrame) : Finset ThreadId :=
  if s.curr_thread = s.daemon then ∅ else {s.curr_thread}

/-- What holds between two steps. -/
def Steady (base : ℤ) (s : MtFrame) : Prop :=
  ∃ place, Sound base s place (running s) ∧ s.context s.curr_thread = .inside ∧ Live s s.curr_thread

theorem switchTo_curr (s : MtFrame) (t : ThreadId) :
    (s.switchTo t).curr_thread = t ∧ (s.switchTo t).daemon = s.daemon ∧
      (s.switchTo t).context t = .inside ∧ (Live (s.switchTo t) t ↔ Live s t) := by
  rw [switchTo_eq]
  exact ⟨rfl, rfl, Function.update_self _ _ _, Iff.rfl⟩

theorem Sound.steady_switchTo (hs : Sound base s place {t}) : Steady base (s.switchTo t) := by
  have ht : t ∈ ({t} : Finset ThreadId) := Finset.mem_singleton_self t
  obtain ⟨hlive, hdaemon⟩ := hs.loose_live t ht
  obtain ⟨hcurr, hd, hcontext, hl⟩ := switchTo_curr s t
  have hrun : running (s.switchTo t) = {t} := by
    rw [running, hcurr, hd, if_neg hdaemon]
  refine ⟨place, ?_, by rw [hcurr, hcontext], by rw [hcurr]; exact hl.mpr hlive⟩
  rw [hrun]
  exact hs.switchTo (hs.place_of_loose ht) hlive

theorem Sound.steady_switchTo_daemon (hs : Sound base s place ∅) :
    Steady base (s.switchTo s.daemon) := by
  obtain ⟨hcurr, hd, hcontext, hl⟩ := switchTo_curr s s.daemon
  have hrun : running (s.switchTo s.daemon) = ∅ := by
    rw [running, hcurr, hd, if_pos rfl]
  refine ⟨place, ?_, by rw [hcurr, hcontext], by rw [hcurr]; exact hl.mpr hs.daemon_live⟩
  rw [hrun]
  exact hs.switchTo ((hs.out_iff s.daemon).mpr (Or.inr (Or.inl rfl))) hs.daemon_live

/-- Handing over to the next thread. -/
theorem Sound.threadSchdule (hs : Sound base s place ∅) : Steady base s.threadSchdule := by
  unfold MtFrame.threadSchdule
  split
  · exact hs.steady_switchTo_daemon
  · rename_i t rest hrun
    have hnext := hs.removeRunable hrun
    rw [insert_empty_eq] at hnext
    exact hnext.steady_switchTo

/-! ## Steps that move threads -/

theorem saveContext_inside (h : s.context t = .inside) : s.saveContext t .inside = s := by
  unfold MtFrame.saveContext
  rw [← h, Function.update_eq_self]

theorem Sound.setWakeupTime (hs : Sound base s place loose) (ht : t ∈ loose)
    (hcontext : s.context t ≠ .waiting) (time : ℕ) :
    Sound base (s.setWakeupTime t time) place loose := by
  obtain ⟨hlive, hdaemon⟩ := hs.loose_live t ht
  have hupdate : Function.update place t .out = place := by
    rw [← hs.place_of_loose ht, Function.update_eq_self]
  have hloose : loosen loose t .out = loose := Finset.insert_eq_of_mem ht
  have hqueues : Queues base (s.setWakeupTime t time) (Function.update place t .out) := by
    rw [hupdate]
    exact ⟨hs.queues.indexed, hs.queues.waitnum, fun u =>
      (hs.queues.seat u).congr ⟨fun _ _ _ => rfl, rfl, Iff.rfl, rfl, rfl⟩⟩
  have hmoved := hs.moved (sameThreads_setWakeupTime s t time) hqueues hlive hdaemon (Or.inl rfl)
    (fun hwait => absurd hwait hcontext)
  rwa [hupdate, hloose] at hmoved

theorem running_of_ne (h : s.curr_thread ≠ s.daemon) : running s = {s.curr_thread} := if_neg h

theorem SameThreads.running_eq (hsame : SameThreads s s') : running s' = running s := by
  rw [running, running, hsame.curr_eq, hsame.daemon_eq]

/-- A step without a switch. -/
theorem Sound.steady_of_same {place' : ThreadId → Place} (hs : Sound base s' place' (running s))
    (hsame : SameThreads s s') (hcontext : s.context s.curr_thread = .inside)
    (hlive : Live s s.curr_thread) : Steady base s' := by
  refine ⟨place', ?_, ?_, ?_⟩
  · rw [hsame.running_eq]
    exact hs
  · rw [hsame.context_eq, hsame.curr_eq]
    exact hcontext
  · rw [hsame.live_iff, hsame.curr_eq]
    exact hlive

theorem Steady.sleep (h : Steady base s) (hne : s.curr_thread ≠ s.daemon) (ms : ℤ) (now : ℕ) :
    Steady base (s.sleep ms now) := by
  obtain ⟨place, hs, hcontext, -⟩ := h
  rw [running_of_ne hne] at hs
  have hmem : s.curr_thread ∈ ({s.curr_thread} : Finset ThreadId) := Finset.mem_singleton_self _
  have hwake := hs.setWakeupTime hmem (by simp [hcontext]) (MtFrame.clockAdd now ms)
  have hsleep := hwake.insertSleep hmem (by simp [MtFrame.setWakeupTime, hcontext])
  rw [Finset.erase_singleton] at hsleep
  unfold MtFrame.sleep
  dsimp only
  rw [saveContext_inside]
  · exact hsleep.threadSchdule
  · exact hcontext

theorem Steady.ioWait (h : Steady base s) (hne : s.curr_thread ≠ s.daemon) (time : ℕ) :
    Steady base ((s.setWakeupTime s.curr_thread time).insertIoWait s.curr_thread).switchContext := by
  obtain ⟨place, hs, hcontext, -⟩ := h
  rw [running_of_ne hne] at hs
  have hmem : s.curr_thread ∈ ({s.curr_thread} : Finset ThreadId) := Finset.mem_singleton_self _
  have hwake := hs.setWakeupTime hmem (by simp [hcontext]) time
  have hwait := hwake.insertIoWait hmem (by simp [MtFrame.setWakeupTime, hcontext])
  rw [Finset.erase_singleton] at hwait
  unfold MtFrame.switchContext
  rw [saveContext_inside]
  · exact hwait.threadSchdule
  · exact hcontext

theorem Steady.kqueueSchedule (h : Steady base s) (hne : s.curr_thread ≠ s.daemon) (added : Bool)
    (timeout : ℤ) (now : ℕ) : Steady base (s.kqueueSchedule added timeout now) := by
  unfold MtFrame.kqueueSchedule
  dsimp only
  split
  · exact h.ioWait hne _
  · obtain ⟨place, hs, hcontext, hlive⟩ := h
    have hmem : s.curr_thread ∈ running s := by
      rw [running_of_ne hne]
      exact Finset.mem_singleton_self _
    exact (hs.setWakeupTime hmem (by simp [hcontext]) _).steady_of_same
      (sameThreads_setWakeupTime s _ _) hcontext hlive

/-- A thread whose `IO_LIST` flag is set sleeps, and is not among the loose ones. -/
theorem Sound.place_of_io (hs : Sound base s place loose) (hio : s.hasFlag t .ioList = true) :
    place t = .sleeping true ∧ t ∉ loose := by
  have hplace : place t = .sleeping true := by
    have hflag := (hs.queues.seat t).io_flag
    rw [MtFrame.hasFlag] at hio
    rw [hio] at hflag
    simpa using hflag.symm
  refine ⟨hplace, ?_⟩
  intro hmem
  rw [hs.place_of_loose hmem] at hplace
  cases hplace

/-- A thread that waits for input or output becomes runnable. -/
theorem Sound.wakeIo (hs : Sound base s place loose) (hio : s.hasFlag t .ioList = true) :
    ∃ place', Sound base ((s.removeIoWait t).insertRunable t) place' loose ∧
      SameThreads s ((s.removeIoWait t).insertRunable t) := by
  obtain ⟨hplace, hnot⟩ := hs.place_of_io hio
  have hsame := sameThreads_removeIoWait hs.queues.indexed t
  have hcontext := hs.context_of_sleeping (t := t) (by simp [hplace, Place.isSleeping])
  have hrun := (hs.removeIoWait hplace).insertRunable (Finset.mem_insert_self t loose)
    (by rw [hsame.context_eq]; exact hcontext)
  rw [Finset.erase_insert hnot] at hrun
  exact ⟨_, hrun, hsame.trans (sameThreads_insertRunable _ t)⟩

/-- A thread that only sleeps becomes runnable. -/
theorem Sound.wakeSleep (hs : Sound base s place loose) (hplace : place t = .sleeping false) :
    ∃ place', Sound base ((s.removeSleep t).insertRunable t) place' loose ∧
      SameThreads s ((s.removeSleep t).insertRunable t) := by
  have hnot : t ∉ loose := by
    intro hmem
    rw [hs.place_of_loose hmem] at hplace
    cases hplace
  have hsame := sameThreads_removeSleep hs.queues.indexed t
  have hcontext := hs.context_of_sleeping (t := t) (by simp [hplace, Place.isSleeping])
  have hrun := (hs.removeSleep hplace).insertRunable (Finset.mem_insert_self t loose)
    (by rw [hsame.context_eq]; exact hcontext)
  rw [Finset.erase_insert hnot] at hrun
  exact ⟨_, hrun, hsame.trans (sameThreads_insertRunable _ t)⟩

theorem Steady.eventNotify (h : Steady base s) (owner : Option ThreadId) :
    Steady base (s.eventNotify owner) := by
  cases owner with
  | none => exact h
  | some t =>
    rw [MtFrame.eventNotify]
    split
    · rename_i hio
      obtain ⟨place, hs, hcontext, hlive⟩ := h
      obtain ⟨place', hs', hsame⟩ := hs.wakeIo hio
      exact hs'.steady_of_same hsame hcontext hlive
    · exact h

theorem Steady.notifyThread (h : Steady base s) (thread : Option ThreadId) :
    Steady base (s.notifyThread thread) := by
  cases thread with
  | none => exact h
  | some t =>
    rw [MtFrame.notifyThread]
    split
    · rename_i hio
      obtain ⟨place, hs, hcontext, hlive⟩ := h
      dsimp only
      split
      · rename_i hdaemon
        have hdaemon' : s.curr_thread = s.daemon := hdaemon
        have hempty : running s = ∅ := if_pos hdaemon'
        have hsame := sameThreads_removeIoWait hs.queues.indexed t
        have hnext := hs.removeIoWait (hs.place_of_io hio).1
        rw [hempty, insert_empty_eq] at hnext
        rw [saveContext_inside]
        · exact hnext.steady_switchTo
        · rw [hsame.context_eq, hsame.daemon_eq, ← hdaemon']
          exact hcontext
      · obtain ⟨place', hs', hsame⟩ := hs.wakeIo hio
        exact hs'.steady_of_same hsame hcontext hlive
    · exact h

theorem Steady.swapDaemonThread (h : Steady base s) : Steady base s.swapDaemonThread := by
  unfold MtFrame.swapDaemonThread
  dsimp only
  split
  · rename_i hne
    obtain ⟨place, hs, hcontext, -⟩ := h
    rw [running_of_ne hne] at hs
    have hrun := hs.insertRunable (Finset.mem_singleton_self _) (by simp [hcontext])
    rw [Finset.erase_singleton] at hrun
    rw [saveContext_inside hcontext]
    exact hrun.steady_switchTo_daemon
  · exact h

theorem Steady.loopEnd (h : Steady base s) (hdaemon : s.curr_thread = s.daemon) :
    Steady base s.switchContext := by
  obtain ⟨place, hs, hcontext, -⟩ := h
  have hempty : running s = ∅ := if_pos hdaemon
  rw [hempty] at hs
  unfold MtFrame.switchContext
  rw [saveContext_inside hcontext]
  exact hs.threadSchdule

/-- The top of the heap sleeps. -/
theorem Sound.place_of_top (hs : Sound base s place loose) (htop : s.sleeplist.heapTop = some t) :
    ∃ io, place t = .sleeping io := by
  obtain ⟨-, -, hidx⟩ := hs.queues.indexed.heapTop_eq htop
  have hsleep := (hs.queues.seat t).sleep_index.mp (by omega)
  cases hplace : place t with
  | sleeping io => exact ⟨io, rfl⟩
  | out => simp [hplace, Place.isSleeping] at hsleep
  | runnable => simp [hplace, Place.isSleeping] at hsleep
  | pending => simp [hplace, Place.isSleeping] at hsleep

theorem Sound.wakeupLoop (hs : Sound base s place loose) (now turns : ℕ) :
    ∃ place', Sound base (MtFrame.wakeupLoop now turns s) place' loose ∧
      SameThreads s (MtFrame.wakeupLoop now turns s) := by
  induction turns generalizing s place with
  | zero => exact ⟨place, hs, SameThreads.of_flag (fun _ => rfl) (fun _ => rfl) rfl rfl⟩
  | succ turns ih =>
    unfold MtFrame.wakeupLoop
    split
    · exact ⟨place, hs, SameThreads.of_flag (fun _ => rfl) (fun _ => rfl) rfl rfl⟩
    · rename_i t htop
      split
      · dsimp only
        obtain ⟨io, hplace⟩ := hs.place_of_top htop
        have hwake : ∃ place', Sound base
            ((if s.hasFlag t .ioList then s.removeIoWait t else s.removeSleep t).insertRunable t)
            place' loose ∧ SameThreads s
            ((if s.hasFlag t .ioList then s.removeIoWait t else s.removeSleep t).insertRunable t) := by
          by_cases hio : s.hasFlag t .ioList = true
          · rw [if_pos hio]
            exact hs.wakeIo hio
          · rw [if_neg hio]
            apply hs.wakeSleep
            have hflag := (hs.queues.seat t).io_flag
            cases io with
            | false => exact hplace
            | true => exact absurd (hflag.trans (by simp [hplace])) hio
        obtain ⟨place', hs', hsame⟩ := hwake
        obtain ⟨place'', hs'', hsame'⟩ := ih hs'
        exact ⟨place'', hs'', hsame.trans hsame'⟩
      · exact ⟨place, hs, SameThreads.of_flag (fun _ => rfl) (fun _ => rfl) rfl rfl⟩

theorem Steady.wakeupTimeout (h : Steady base s) (now : ℕ) : Steady base (s.wakeupTimeout now) := by
  obtain ⟨place, hs, hcontext, hlive⟩ := h
  obtain ⟨place', hs', hsame⟩ := hs.wakeupLoop now s.sleeplist.count
  exact hs'.steady_of_same hsame hcontext hlive

end FStack.Analysis
