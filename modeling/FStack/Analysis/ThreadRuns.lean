import FStack.Analysis.ThreadJoins

/-!
# Runs of the micro-thread scheduler

Every operation of the frame keeps `Sound`, and so does every run from the frame that `InitFrame` leaves.

`threadsPlaced_iff` says what follows for the queues: every live thread is at one place, and its flags
say which.  `_waitnum`, which no constructor sets, counts the runnable threads from whatever it is at
first.  `execAllTask_joins` says what follows for `mt_exec_all_task`.
-/

set_option autoImplicit false

namespace FStack.Analysis

open FStack.Prelude FStack.Model

variable {base : ℤ} {s s' : MtFrame} {place : ThreadId → Place} {loose : Finset ThreadId}
  {t u p : ThreadId}
variable {task : TaskId} {list : List ThreadId} {tasks : List TaskId} {log : List MtEvent}

/-! ## Making and ending threads -/

theorem Sound.not_mem_sub_list (hs : Sound base s place loose) (hparent : s.parent t = none)
    (p : ThreadId) : t ∉ s.sub_list p := by
  intro hmem
  rw [← hs.family.parent_iff, hparent] at hmem
  cases hmem

/-- A thread without a parent gets a start function and a type. -/
theorem Sound.relabel (hs : Sound base s place loose) (hparent : s.parent t = none)
    (f : Option ThreadStart) (ty : ThreadType) :
    Sound base { s with start := Function.update s.start t f, type := Function.update s.type t ty }
      place loose := by
  have htask : ∀ p, ∀ u ∈ s.sub_list p,
      taskOf { s with start := Function.update s.start t f, type := Function.update s.type t ty } u =
        taskOf s u := by
    intro p u hu
    have hut : u ≠ t := by
      rintro rfl
      exact hs.not_mem_sub_list hparent p hu
    simp only [taskOf, Function.update_of_ne hut]
  refine ⟨⟨hs.queues.indexed, hs.queues.waitnum, fun u =>
      (hs.queues.seat u).congr ⟨fun _ _ _ => rfl, rfl, Iff.rfl, rfl, rfl⟩⟩,
    ⟨hs.pool.live_card, hs.pool.total_le, hs.pool.nodup, hs.pool.free, hs.pool.fresh, hs.pool.heap_max⟩,
    hs.out_iff, hs.loose_live, hs.daemon_live, hs.daemon_context, hs.idle, ?_, ?_, hs.returns,
    hs.results⟩
  · refine ⟨hs.family.parent_iff, hs.family.nodup, hs.family.live, hs.family.flag, ?_, ?_,
      hs.family.waiting⟩
    · intro u p hu
      have hut : u ≠ t := by
        rintro rfl
        exact hs.not_mem_sub_list hparent p hu
      exact (Function.update_of_ne hut _ _).trans (hs.family.type u p hu)
    · intro u p hu
      rw [htask p u hu]
      exact hs.family.task u p hu
  · intro p hp
    obtain ⟨tasks, since, hj⟩ := hs.joins p hp
    have hlog : ({ s with start := Function.update s.start t f, type := Function.update s.type t ty } :
        MtFrame).log = [] ++ s.log := rfl
    exact ⟨tasks, [] ++ since, hj.skip (by simp) hlog rfl (htask p) (fun _ _ => Iff.rfl) rfl⟩

theorem Allocated.taskOf_eq (ha : Allocated s s' t) (u : ThreadId) : taskOf s' u = taskOf s u := by
  rw [taskOf, taskOf, ha.rest]

/-- A new thread is in no queue. -/
theorem Sound.allocated (hs : Sound base s place loose) (ha : Allocated s s' t) :
    Sound base s' place (insert t loose) := by
  have hdaemon : s'.daemon = s.daemon := by rw [ha.rest]
  have hcontext : s'.context = s.context := by rw [ha.rest]
  have hsub : s'.sub_list = s.sub_list := by rw [ha.rest]
  have hparent : s'.parent = s.parent := by rw [ha.rest]
  have htype : s'.type = s.type := by rw [ha.rest]
  have hlog : s'.log = s.log := by rw [ha.rest]
  have hresult : s'.result = s.result := by rw [ha.rest]
  have htd : t ≠ s.daemon := by
    rintro rfl
    exact ha.not_live hs.daemon_live
  refine ⟨⟨?_, ?_, ?_⟩, ha.pool, ?_, ?_, ?_, ?_, ?_, ?_, ?_, ?_, ?_⟩
  · rw [ha.rest]
    exact hs.queues.indexed
  · rw [ha.rest]
    exact hs.queues.waitnum
  · intro u
    apply (hs.queues.seat u).congr
    refine ⟨fun f hf _ => ha.flag_eq u f hf, ?_, ?_, ?_, ?_⟩
    all_goals rw [ha.rest]
  · intro u
    rw [hs.out_iff, Finset.mem_insert, ha.live_iff, hdaemon]
    by_cases hut : u = t
    · subst hut
      simp [ha.not_live]
    · simp [hut]
  · intro u hu
    rw [ha.live_iff, hdaemon]
    rcases Finset.mem_insert.mp hu with rfl | hmem
    · exact ⟨Or.inl rfl, htd⟩
    · exact ⟨Or.inr (hs.loose_live u hmem).1, (hs.loose_live u hmem).2⟩
  · rw [hdaemon, ha.live_iff]
    exact Or.inr hs.daemon_live
  · rw [hcontext, hdaemon]
    exact hs.daemon_context
  · intro u hu
    rw [ha.live_iff, not_or] at hu
    rw [hsub, hparent, hcontext, ha.flag_eq u .subList (by decide)]
    exact hs.idle u hu.2
  · refine ⟨?_, ?_, ?_, ?_, ?_, ?_, ?_⟩
    · rw [hparent, hsub]
      exact hs.family.parent_iff
    · rw [hsub]
      exact hs.family.nodup
    · intro u p hu
      rw [hsub] at hu
      exact (ha.live_iff u).mpr (Or.inr (hs.family.live u p hu))
    · intro u p hu
      rw [hsub] at hu
      rw [ha.flag_eq u .subList (by decide)]
      exact hs.family.flag u p hu
    · rw [htype, hsub]
      exact hs.family.type
    · intro u p hu
      rw [hsub] at hu
      rw [ha.taskOf_eq]
      exact hs.family.task u p hu
    · rw [hsub, hcontext]
      exact hs.family.waiting
  · intro p hp
    rw [hcontext] at hp
    obtain ⟨tasks, since, hj⟩ := hs.joins p hp
    exact ⟨tasks, [] ++ since, hj.skip (by simp) hlog (by rw [hsub]) (fun u _ => ha.taskOf_eq u)
      (fun u _ => by rw [hcontext]) rfl⟩
  · rw [hlog]
    exact hs.returns
  · rw [hlog, hresult]
    exact hs.results

/-- A thread in no queue that has no parent goes back to the pool. -/
theorem Sound.freeThread (hs : Sound base s place loose) (ht : t ∈ loose) (hparent : s.parent t = none) :
    Sound base (s.freeThread t) place (loose.erase t) ∧ Freed s (s.freeThread t) t := by
  obtain ⟨hlive, htd⟩ := hs.loose_live t ht
  have hf := hs.pool.freeThread hlive
  refine ⟨?_, hf⟩
  have hout := hs.place_of_loose ht
  have hdaemon : (s.freeThread t).daemon = s.daemon := by rw [hf.rest]; rfl
  have hcontext : (s.freeThread t).context = Function.update s.context t .start := by
    rw [hf.rest]; rfl
  have hsub : (s.freeThread t).sub_list = s.sub_list := by
    rw [hf.rest]
    change Function.update s.sub_list t [] = s.sub_list
    rw [← hs.sub_list_of_out hout, Function.update_eq_self]
  have hpar : (s.freeThread t).parent = s.parent := by
    rw [hf.rest]
    change Function.update s.parent t none = s.parent
    rw [← hparent, Function.update_eq_self]
  have htask : ∀ u, u ≠ t → taskOf (s.freeThread t) u = taskOf s u := by
    intro u hut
    have hstart : (s.freeThread t).start = Function.update s.start t none := by rw [hf.rest]; rfl
    rw [taskOf, taskOf, hstart, Function.update_of_ne hut]
  have htype : ∀ u, u ≠ t → (s.freeThread t).type u = s.type u := by
    intro u hut
    have hty : (s.freeThread t).type = Function.update s.type t .normal := by rw [hf.rest]; rfl
    rw [hty, Function.update_of_ne hut]
  have hlog : (s.freeThread t).log = s.log := by rw [hf.rest]; rfl
  have hresult : (s.freeThread t).result = s.result := by rw [hf.rest]; rfl
  have hrun : (s.freeThread t).runlist = s.runlist := by rw [hf.rest]; rfl
  have hio : (s.freeThread t).iolist = s.iolist := by rw [hf.rest]; rfl
  have hpend : (s.freeThread t).pend_list = s.pend_list := by rw [hf.rest]; rfl
  have hsleep : (s.freeThread t).sleeplist = s.sleeplist := by rw [hf.rest]; rfl
  have hnot : ∀ p, ∀ u ∈ s.sub_list p, u ≠ t := by
    rintro p u hu rfl
    exact hs.not_mem_sub_list hparent p hu
  refine ⟨⟨?_, ?_, ?_⟩, hf.pool, ?_, ?_, ?_, ?_, ?_, ?_, ?_, ?_, ?_⟩
  · rw [hsleep]
    exact hs.queues.indexed
  · have hwait : (s.freeThread t).waitnum = s.waitnum := by rw [hf.rest]; rfl
    rw [hwait, hrun]
    exact hs.queues.waitnum
  · intro u
    have hseat := hs.queues.seat u
    by_cases hut : u = t
    · subst hut
      rw [hout] at hseat ⊢
      refine ⟨?_, ?_, ?_, ?_, ?_, ?_, ?_, ?_⟩
      · simp [hf.flag_eq]
      · rw [hrun]
        exact hseat.run_count
      · simp [hf.flag_eq, Place.isSleeping]
      · rw [hsleep]
        exact hseat.sleep_index
      · simp [hf.flag_eq]
      · rw [hio]
        exact hseat.io_count
      · simp [hf.flag_eq]
      · rw [hpend]
        exact hseat.pend_count
    · apply hseat.congr
      refine ⟨?_, by rw [hrun], by rw [hsleep], by rw [hio], by rw [hpend]⟩
      intro f _ _
      rw [hf.flag_eq, if_neg hut]
  · intro u
    rw [hs.out_iff, Finset.mem_erase, hf.live_iff, hdaemon]
    by_cases hut : u = t
    · subst hut
      simp [ht]
    · simp [hut]
  · intro u hu
    obtain ⟨hut, hmem⟩ := Finset.mem_erase.mp hu
    rw [hf.live_iff, hdaemon]
    exact ⟨⟨hut, (hs.loose_live u hmem).1⟩, (hs.loose_live u hmem).2⟩
  · rw [hdaemon, hf.live_iff]
    exact ⟨Ne.symm htd, hs.daemon_live⟩
  · rw [hdaemon, hcontext, Function.update_of_ne (Ne.symm htd)]
    exact hs.daemon_context
  · intro u hu
    rw [hsub, hpar, hcontext, hf.flag_eq]
    by_cases hut : u = t
    · subst hut
      simp [hs.sub_list_of_out hout, hparent]
    · rw [if_neg hut, Function.update_of_ne hut]
      apply hs.idle u
      intro hl
      exact hu ((hf.live_iff u).mpr ⟨hut, hl⟩)
  · refine ⟨?_, ?_, ?_, ?_, ?_, ?_, ?_⟩
    · rw [hpar, hsub]
      exact hs.family.parent_iff
    · rw [hsub]
      exact hs.family.nodup
    · intro u p hu
      rw [hsub] at hu
      exact (hf.live_iff u).mpr ⟨hnot p u hu, hs.family.live u p hu⟩
    · intro u p hu
      rw [hsub] at hu
      rw [hf.flag_eq, if_neg (hnot p u hu)]
      exact hs.family.flag u p hu
    · intro u p hu
      rw [hsub] at hu
      rw [htype u (hnot p u hu)]
      exact hs.family.type u p hu
    · intro u p hu
      rw [hsub] at hu
      rw [htask u (hnot p u hu)]
      exact hs.family.task u p hu
    · intro p hp
      rw [hsub] at hp
      have hpt : p ≠ t := by
        rintro rfl
        exact hp (hs.sub_list_of_out hout)
      rw [hcontext, Function.update_of_ne hpt]
      exact hs.family.waiting p hp
  · intro p hp
    have hpt : p ≠ t := by
      rintro rfl
      rw [hcontext, Function.update_self] at hp
      cases hp
    rw [hcontext, Function.update_of_ne hpt] at hp
    obtain ⟨tasks, since, hj⟩ := hs.joins p hp
    refine ⟨tasks, [] ++ since, hj.skip (by simp) hlog (by rw [hsub])
      (fun u hu => htask u (hnot p u hu)) ?_ rfl⟩
    intro u hu
    rw [hcontext, Function.update_of_ne (hnot p u hu)]
  · rw [hlog]
    exact hs.returns
  · rw [hlog, hresult]
    exact hs.results

theorem Steady.createThread (h : Steady base s) (initial : Bool) :
    Steady base (s.createThread .entry true initial).1 := by
  obtain ⟨place, hs, hcontext, hlive⟩ := h
  unfold MtFrame.createThread
  rcases hs.pool.allocThread_cases initial with heq | ⟨s', t, heq, ha⟩
  · rw [heq]
    exact ⟨place, hs, hcontext, hlive⟩
  · rw [heq]
    dsimp only
    rw [if_pos rfl]
    obtain ⟨-, hpar, hstart, -⟩ := hs.idle t ha.not_live
    have hparent : s'.parent t = none := by
      rw [ha.rest]
      exact hpar
    have hcon : s'.context = s.context := by rw [ha.rest]
    have hcurr : s'.curr_thread = s.curr_thread := by rw [ha.rest]
    have hdaemon : s'.daemon = s.daemon := by rw [ha.rest]
    have hnot : t ∉ running s := fun hmem => ha.not_live (hs.loose_live t hmem).1
    have hnew := (hs.allocated ha).relabel hparent (some .entry) (s'.type t)
    rw [Function.update_eq_self] at hnew
    have hrun := hnew.insertRunable (Finset.mem_insert_self t _) (by
      change s'.context t ≠ .waiting
      rw [hcon, hstart]
      simp)
    rw [Finset.erase_insert hnot] at hrun
    refine ⟨Function.update place t .runnable, ?_, ?_, ?_⟩
    · have hrunning : running (MtFrame.insertRunable
          { s' with start := Function.update s'.start t (some .entry) } t) = running s := by
        rw [(sameThreads_insertRunable _ t).running_eq, running, running]
        change (if s'.curr_thread = s'.daemon then _ else {s'.curr_thread}) = _
        rw [hcurr, hdaemon]
      rw [hrunning]
      exact hrun
    · change s'.context s'.curr_thread = .inside
      rw [hcon, hcurr]
      exact hcontext
    · rw [(sameThreads_insertRunable _ t).live_iff]
      change Live s' s'.curr_thread
      rw [hcurr]
      exact (ha.live_iff _).mpr (Or.inr hlive)

/-- The last sub-thread of `p` has gone. -/
theorem Sound.scheduleUnpend (hs : Sound base s place loose) (hplace : place p = .pending)
    (hwait : s.context p = .waiting) (hsub : s.sub_list p = []) :
    Sound base (s.scheduleUnpend p) (Function.update place p .runnable) loose := by
  obtain ⟨hlive, hdaemon⟩ := hs.live_of_place (t := p) (by simp [hplace])
  have hnot : p ∉ loose := by
    intro hmem
    rw [hs.place_of_loose hmem] at hplace
    cases hplace
  have hqueues := (hs.queues.removePend hplace).insertRunable (Function.update_self p .out place)
  rw [Function.update_idem] at hqueues
  have hsame := (sameThreads_removePend s p).trans (sameThreads_insertRunable (s.removePend p) p)
  have hmoved := hs.moved hsame hqueues hlive hdaemon (Or.inr rfl) ?_
  · have hloose : loosen loose p .runnable = loose := Finset.erase_eq_of_notMem hnot
    rw [hloose] at hmoved
    exact hmoved
  · intro _
    obtain ⟨tasks, since, hj⟩ := hs.joins p hwait
    refine ⟨tasks, .runable p :: since, ?_, hj.nonempty, hj.started, hj.processed, ?_, ?_, ?_⟩
    · change openCall p (.runable p :: s.log) = _
      rw [openCall, hj.call]
      · rfl
      · simp
      · simp
    · have hruns := hj.runs
      rw [if_pos hplace] at hruns
      rw [List.count_cons_self, hruns]
      simp
    · intro _
      exact hsub
    · simp [Place.isSleeping]

/-- A sub-thread that has processed its task leaves its parent. -/
def leftParent (s : MtFrame) (t p : ThreadId) (task : TaskId) (rc : ℤ) : MtFrame :=
  { s.unsetFlag t .subList with
    sub_list := Function.update s.sub_list p ((s.sub_list p).erase t)
    parent := Function.update s.parent t none
    result := Function.update s.result task (some rc)
    log := .processed (some p) task rc :: s.log }

theorem Sound.leaveParent (hs : Sound base s place loose) (ht : place t = .out)
    (hcontext : s.context t = .inside) (hparent : s.parent t = some p) (htask : taskOf s t = some task)
    (rc : ℤ) : Sound base (leftParent s t p task rc) place loose := by
  have hmem := (hs.family.parent_iff t p).mp hparent
  have hsubne : ∀ a u, u ∈ (leftParent s t p task rc).sub_list a → u ∈ s.sub_list a ∧ u ≠ t := by
    intro a u hu
    change u ∈ Function.update s.sub_list p ((s.sub_list p).erase t) a at hu
    by_cases hap : a = p
    · subst hap
      rw [Function.update_self] at hu
      refine ⟨List.mem_of_mem_erase hu, ?_⟩
      rintro rfl
      exact (hs.family.nodup a).not_mem_erase hu
    · rw [Function.update_of_ne hap] at hu
      refine ⟨hu, ?_⟩
      rintro rfl
      have hother := (hs.family.parent_iff u a).mpr hu
      rw [hparent] at hother
      exact hap (Option.some.inj hother).symm
  have hflag : ∀ u f, f ≠ .subList → (leftParent s t p task rc).flag u f = s.flag u f :=
    fun u f hf => unsetFlag_of_ne s t u hf
  have hlive : ∀ u, Live (leftParent s t p task rc) u ↔ Live s u := by
    intro u
    rw [Live, Live, hflag u .freeList (by decide)]
    rfl
  refine ⟨⟨hs.queues.indexed, hs.queues.waitnum, fun u => (hs.queues.seat u).congr
      ⟨fun f _ hf => hflag u f hf, rfl, Iff.rfl, rfl, rfl⟩⟩, ?_, ?_, ?_, ?_, hs.daemon_context, ?_, ?_,
    ?_, ?_, ?_⟩
  · have hset : liveSet (leftParent s t p task rc) = liveSet s := by
      ext u
      rw [mem_liveSet, mem_liveSet, hlive]
    refine ⟨?_, hs.pool.total_le, hs.pool.nodup, ?_, ?_, hs.pool.heap_max⟩
    · rw [hset]
      exact hs.pool.live_card
    · intro u hu
      rw [hflag u .freeList (by decide)]
      exact hs.pool.free u hu
    · intro u hu
      rw [hflag u .freeList (by decide)]
      exact hs.pool.fresh u hu
  · intro u
    rw [hlive]
    exact hs.out_iff u
  · intro u hu
    rw [hlive]
    exact hs.loose_live u hu
  · rw [hlive]
    exact hs.daemon_live
  · intro u hu
    rw [hlive] at hu
    obtain ⟨h1, h2, h3, h4⟩ := hs.idle u hu
    have hut : u ≠ t := by
      rintro rfl
      rw [hparent] at h2
      cases h2
    have hup : u ≠ p := by
      rintro rfl
      rw [h1] at hmem
      cases hmem
    refine ⟨(Function.update_of_ne hup _ _).trans h1, (Function.update_of_ne hut _ _).trans h2, h3, ?_⟩
    change (s.unsetFlag t .subList).flag u .subList = false
    rw [unsetFlag_flag, if_neg (fun hand => hut hand.1), h4]
  · refine ⟨?_, ?_, ?_, ?_, ?_, ?_, ?_⟩
    · intro u a
      change Function.update s.parent t none u = some a ↔
        u ∈ Function.update s.sub_list p ((s.sub_list p).erase t) a
      by_cases hut : u = t
      · subst hut
        rw [Function.update_self]
        constructor
        · intro hnone
          cases hnone
        · intro hin
          exact absurd rfl (hsubne a u hin).2
      · rw [Function.update_of_ne hut, hs.family.parent_iff u a]
        by_cases hap : a = p
        · subst hap
          rw [Function.update_self, List.mem_erase_of_ne hut]
        · rw [Function.update_of_ne hap]
    · intro a
      change (Function.update s.sub_list p ((s.sub_list p).erase t) a).Nodup
      by_cases hap : a = p
      · subst hap
        rw [Function.update_self]
        exact (hs.family.nodup a).erase t
      · rw [Function.update_of_ne hap]
        exact hs.family.nodup a
    · intro u a hu
      exact (hlive u).mpr (hs.family.live u a (hsubne a u hu).1)
    · intro u a hu
      obtain ⟨hin, hut⟩ := hsubne a u hu
      change (s.unsetFlag t .subList).flag u .subList = true
      rw [unsetFlag_flag, if_neg (fun hand => hut hand.1)]
      exact hs.family.flag u a hin
    · intro u a hu
      exact hs.family.type u a (hsubne a u hu).1
    · intro u a hu
      exact hs.family.task u a (hsubne a u hu).1
    · intro a ha
      apply hs.family.waiting a
      intro hnil
      apply ha
      change Function.update s.sub_list p ((s.sub_list p).erase t) a = []
      by_cases hap : a = p
      · subst hap
        rw [Function.update_self, hnil]
        rfl
      · rw [Function.update_of_ne hap, hnil]
  · intro a ha
    obtain ⟨tasks, since, hj⟩ := hs.joins a ha
    by_cases hap : a = p
    · subst hap
      have hperm : (s.sub_list a).Perm (t :: (s.sub_list a).erase t) := List.perm_cons_erase hmem
      have hsub : (leftParent s t a task rc).sub_list a = (s.sub_list a).erase t :=
        Function.update_self _ _ _
      refine ⟨tasks, .processed (some a) task rc :: since, ?_, hj.nonempty, ?_, ?_, hj.runs, ?_,
        hj.not_sleeping⟩
      · change openCall a (.processed (some a) task rc :: s.log) = _
        rw [openCall, hj.call]
        · rfl
        · simp
        · simp
      · rw [hsub]
        have hfilter := (hperm.filter fun u => s.context u = .start).filterMap (taskOf s)
        rw [List.filter_cons_of_neg (by simp [hcontext])] at hfilter
        exact hj.started.trans (hfilter.append_left (startedBy a since))
      · rw [hsub]
        have hmap := hperm.filterMap (taskOf s)
        rw [List.filterMap_cons_some htask] at hmap
        have hpr : processedBy a (.processed (some a) task rc :: since) =
            task :: processedBy a since := by
          simp [processedBy]
        rw [hpr]
        exact (hj.processed.trans (hmap.append_left (processedBy a since))).trans List.perm_middle
      · intro hpend
        rw [hj.awake hpend] at hmem
        cases hmem
    · have hforeign : ∀ e ∈ [MtEvent.processed (some p) task rc], concerns a e = false := by
        simpa [concerns] using Ne.symm hap
      have hlog : (leftParent s t p task rc).log = [.processed (some p) task rc] ++ s.log := rfl
      exact ⟨tasks, [.processed (some p) task rc] ++ since, hj.skip hforeign hlog
        (Function.update_of_ne hap _ _) (fun _ _ => rfl) (fun _ _ => Iff.rfl) rfl⟩
  · change ReturnsOk (.processed (some p) task rc :: s.log)
    rw [returnsOk_cons]
    exact ⟨fun a heq => (by cases heq), hs.returns⟩
  · funext task'
    change Function.update s.result task (some rc) task' = _
    rw [hs.results]
    by_cases heq : task' = task
    · subst heq
      simp [leftParent, resultOf]
    · simp [leftParent, resultOf, heq]

/-- Something happens that no waiting thread waits for. -/
theorem Sound.record {e : MtEvent} {result : TaskId → Option ℤ} (hs : Sound base s place loose)
    (hforeign : ∀ p, s.context p = .waiting → concerns p e = false)
    (hreturn : ∀ p, e = .returned p 0 → JoinDone p s.log) (hresult : result = resultOf (e :: s.log)) :
    Sound base { s with result := result, log := e :: s.log } place loose := by
  refine ⟨⟨hs.queues.indexed, hs.queues.waitnum, fun u =>
      (hs.queues.seat u).congr ⟨fun _ _ _ => rfl, rfl, Iff.rfl, rfl, rfl⟩⟩,
    ⟨hs.pool.live_card, hs.pool.total_le, hs.pool.nodup, hs.pool.free, hs.pool.fresh, hs.pool.heap_max⟩,
    hs.out_iff, hs.loose_live, hs.daemon_live, hs.daemon_context, hs.idle,
    ⟨hs.family.parent_iff, hs.family.nodup, hs.family.live, hs.family.flag, hs.family.type,
      hs.family.task, hs.family.waiting⟩, ?_, ?_, hresult⟩
  · intro p hp
    obtain ⟨tasks, since, hj⟩ := hs.joins p hp
    have hlog : ({ s with result := result, log := e :: s.log } : MtFrame).log = [e] ++ s.log := rfl
    refine ⟨tasks, [e] ++ since, hj.skip ?_ hlog rfl (fun _ _ => rfl) (fun _ _ => Iff.rfl) rfl⟩
    simpa using hforeign p hp
  · rw [returnsOk_cons]
    exact ⟨hreturn, hs.returns⟩

theorem finishStart_of_task (htask : taskOf s s.curr_thread = some task) (rc : ℤ) :
    s.finishStart rc =
      { s with
        result := Function.update s.result task (some rc)
        log := .processed (s.parent s.curr_thread) task rc :: s.log } := by
  unfold taskOf at htask
  unfold MtFrame.finishStart
  cases hstart : s.start s.curr_thread with
  | none =>
    rw [hstart] at htask
    cases htask
  | some start =>
    rw [hstart] at htask
    cases start with
    | entry => cases htask
    | taskProcess task' =>
      cases htask
      rfl
    | daemonRun => cases htask

theorem finishStart_of_entry (htask : taskOf s s.curr_thread = none) (rc : ℤ) :
    s.finishStart rc = s := by
  unfold taskOf at htask
  unfold MtFrame.finishStart
  cases hstart : s.start s.curr_thread with
  | none => rfl
  | some start =>
    rw [hstart] at htask
    cases start with
    | entry => rfl
    | taskProcess task => cases htask
    | daemonRun => rfl

/-- The start function of a thread without a parent has returned. -/
theorem Sound.finishStart (hs : Sound base s place loose) (hparent : s.parent s.curr_thread = none)
    (rc : ℤ) : Sound base (s.finishStart rc) place loose := by
  cases htask : taskOf s s.curr_thread with
  | none =>
    rw [finishStart_of_entry htask]
    exact hs
  | some task =>
    rw [finishStart_of_task htask, hparent]
    apply hs.record
    · intro p _
      rfl
    · intro p heq
      cases heq
    · funext task'
      rw [hs.results]
      by_cases heq : task' = task
      · subst heq
        simp [resultOf]
      · simp [resultOf, heq]

/-- The state in which a thread that ends is freed. -/
theorem Sound.beforeFree (hs : Sound base s place {s.curr_thread})
    (hcontext : s.context s.curr_thread = .inside) (rc : ℤ) :
    ∃ s₁ place₁, (s.exit rc) = (s₁.freeThread s.curr_thread).threadSchdule ∧
      Sound base s₁ place₁ {s.curr_thread} ∧ s₁.parent s.curr_thread = none := by
  have hmem : s.curr_thread ∈ ({s.curr_thread} : Finset ThreadId) := Finset.mem_singleton_self _
  have hout := hs.place_of_loose hmem
  cases hparent : s.parent s.curr_thread with
  | none =>
    have hfinish := hs.finishStart hparent rc
    have hpar : (s.finishStart rc).parent s.curr_thread = none := by
      unfold MtFrame.finishStart
      split
      · exact hparent
      · exact hparent
    refine ⟨s.finishStart rc, place, ?_, hfinish, hpar⟩
    have hwake : (s.finishStart rc).wakeupParent s.curr_thread = s.finishStart rc := by
      rw [MtFrame.wakeupParent, hpar]
    unfold MtFrame.exit
    dsimp only
    rw [hwake, ite_self]
  | some p =>
    have hsub := (hs.family.parent_iff _ p).mp hparent
    obtain ⟨task, htask⟩ := Option.isSome_iff_exists.mp (hs.family.task _ p hsub)
    have hleft := hs.leaveParent hout hcontext hparent htask rc
    have hwaiting := hs.family.waiting p (List.ne_nil_of_mem hsub)
    have hremove : (s.finishStart rc).removeSubThread p s.curr_thread =
        leftParent s s.curr_thread p task rc := by
      have hflag : ({ s with
          result := Function.update s.result task (some rc)
          log := .processed (some p) task rc :: s.log } : MtFrame).hasFlag s.curr_thread .subList =
            true := hs.family.flag _ p hsub
      rw [finishStart_of_task htask, hparent, MtFrame.removeSubThread, if_pos hflag]
      rfl
    have hexit : s.exit rc =
        ((if (leftParent s s.curr_thread p task rc).sub_list p = [] then
          (leftParent s s.curr_thread p task rc).scheduleUnpend p
        else leftParent s s.curr_thread p task rc).freeThread s.curr_thread).threadSchdule := by
      have htype : (s.finishStart rc).type s.curr_thread = .subThread := by
        rw [finishStart_of_task htask]
        exact hs.family.type _ p hsub
      have hpar : (s.finishStart rc).parent s.curr_thread = some p := by
        rw [finishStart_of_task htask]
        exact hparent
      unfold MtFrame.exit MtFrame.wakeupParent
      dsimp only
      rw [if_pos htype, hpar]
      dsimp only
      rw [hremove]
    have hnone : (leftParent s s.curr_thread p task rc).parent s.curr_thread = none :=
      Function.update_self _ _ _
    rw [hexit]
    by_cases hlast : (leftParent s s.curr_thread p task rc).sub_list p = []
    · have hpend : place p = .pending := by
        obtain ⟨tasks, since, hj⟩ := hs.joins p hwaiting
        by_contra hpend
        rw [hj.awake hpend] at hsub
        cases hsub
      rw [if_pos hlast]
      exact ⟨_, _, rfl, hleft.scheduleUnpend hpend hwaiting hlast, hnone⟩
    · rw [if_neg hlast]
      exact ⟨_, _, rfl, hleft, hnone⟩

theorem Steady.exit (h : Steady base s) (hne : s.curr_thread ≠ s.daemon) (rc : ℤ) :
    Steady base (s.exit rc) := by
  obtain ⟨place, hs, hcontext, -⟩ := h
  rw [running_of_ne hne] at hs
  obtain ⟨s₁, place₁, heq, hs₁, hparent⟩ := hs.beforeFree hcontext rc
  have hfree := (hs₁.freeThread (Finset.mem_singleton_self _) hparent).1
  rw [Finset.erase_singleton] at hfree
  rw [heq]
  exact hfree.threadSchdule

/-! ## Tasks -/

/-- The threads `new` have been made, for tasks, and are in no queue. -/
structure SubsCreated (base : ℤ) (s s' : MtFrame) (place : ThreadId → Place) (loose : Finset ThreadId)
    (new : List ThreadId) : Prop where
  sound : Sound base s' place (loose ∪ new.toFinset)
  nodup : new.Nodup
  not_live : ∀ u ∈ new, ¬ Live s u
  live_iff : ∀ u, Live s' u ↔ u ∈ new ∨ Live s u
  flag_eq : ∀ u f, f ≠ .freeList → s'.flag u f = s.flag u f
  start_eq : ∀ u, u ∉ new → s'.start u = s.start u
  task : ∀ u ∈ new, (taskOf s' u).isSome = true
  type : ∀ u ∈ new, s'.type u = .subThread
  type_eq : ∀ u, u ∉ new → s'.type u = s.type u
  use_num : s'.use_num = s.use_num + new.length
  rest : s' = { s with
    flag := s'.flag, freelist := s'.freelist, total_num := s'.total_num, use_num := s'.use_num,
    default_thread_num := s'.default_thread_num, next := s'.next, start := s'.start, type := s'.type }

theorem Sound.createSubs (tasks : List (TaskId × Bool)) (list : List ThreadId)
    (hs : Sound base s place loose) :
    ∃ s' new ok, MtFrame.createSubs tasks list s = (s', list ++ new, ok) ∧
      SubsCreated base s s' place loose new ∧
      (ok = true → new.filterMap (taskOf s') = tasks.map Prod.fst) := by
  induction tasks generalizing s list loose with
  | nil =>
    refine ⟨s, [], true, by rw [MtFrame.createSubs, List.append_nil], ?_, fun _ => rfl⟩
    refine ⟨?_, List.nodup_nil, by simp, by simp, fun _ _ _ => rfl, fun _ _ => rfl, by simp, by simp,
      fun _ _ => rfl, by simp, rfl⟩
    simpa using hs
  | cons head tasks ih =>
    obtain ⟨task, initial⟩ := head
    rcases hs.pool.allocThread_cases initial with heq | ⟨s₁, u, heq, ha⟩
    · refine ⟨s, [], false, ?_, ?_, by simp⟩
      · rw [MtFrame.createSubs, MtFrame.createThread, heq, List.append_nil]
      · refine ⟨?_, List.nodup_nil, by simp, by simp, fun _ _ _ => rfl, fun _ _ => rfl, by simp, by simp,
          fun _ _ => rfl, by simp, rfl⟩
        simpa using hs
    · have hparent : s₁.parent u = none := by
        rw [ha.rest]
        exact (hs.idle u ha.not_live).2.1
      have hnew := (hs.allocated ha).relabel hparent (some (.taskProcess task)) .subThread
      obtain ⟨s', new, ok, hrec, hc, htasks⟩ := ih (list ++ [u]) hnew
      have hlive₂ : ∀ a, Live ({ s₁ with
          start := Function.update s₁.start u (some (.taskProcess task))
          type := Function.update s₁.type u .subThread } : MtFrame) a ↔ a = u ∨ Live s a := ha.live_iff
      have hunew : u ∉ new := by
        intro hmem
        exact hc.not_live u hmem ((hlive₂ u).mpr (Or.inl rfl))
      have hstart : s'.start u = some (.taskProcess task) :=
        (hc.start_eq u hunew).trans (Function.update_self _ _ _)
      have hutask : taskOf s' u = some task := by
        rw [taskOf, hstart]
      refine ⟨s', u :: new, ok, ?_, ?_, ?_⟩
      · rw [MtFrame.createSubs, MtFrame.createThread, heq]
        simp only [Bool.false_eq_true, if_false]
        rw [hrec, List.append_assoc, List.singleton_append]
      · refine ⟨?_, List.nodup_cons.mpr ⟨hunew, hc.nodup⟩, ?_, ?_, ?_, ?_, ?_, ?_, ?_, ?_, ?_⟩
        · have hset : loose ∪ (u :: new).toFinset = insert u loose ∪ new.toFinset := by
            ext a
            simp only [Finset.mem_union, List.mem_toFinset, List.mem_cons, Finset.mem_insert]
            tauto
          rw [hset]
          exact hc.sound
        · intro a ha'
          rcases List.mem_cons.mp ha' with rfl | hmem
          · exact ha.not_live
          · intro hl
            exact hc.not_live a hmem ((hlive₂ a).mpr (Or.inr hl))
        · intro a
          rw [hc.live_iff, hlive₂, List.mem_cons]
          tauto
        · intro a f hf
          rw [hc.flag_eq a f hf]
          exact ha.flag_eq a f hf
        · intro a ha'
          rw [List.mem_cons, not_or] at ha'
          rw [hc.start_eq a ha'.2]
          change Function.update s₁.start u _ a = _
          rw [Function.update_of_ne ha'.1, ha.rest]
        · intro a ha'
          rcases List.mem_cons.mp ha' with rfl | hmem
          · rw [hutask]
            rfl
          · exact hc.task a hmem
        · intro a ha'
          rcases List.mem_cons.mp ha' with rfl | hmem
          · rw [hc.type_eq a hunew]
            exact Function.update_self _ _ _
          · exact hc.type a hmem
        · intro a ha'
          rw [List.mem_cons, not_or] at ha'
          rw [hc.type_eq a ha'.2]
          change Function.update s₁.type u _ a = _
          rw [Function.update_of_ne ha'.1, ha.rest]
        · have huse : ({ s₁ with
              start := Function.update s₁.start u (some (.taskProcess task))
              type := Function.update s₁.type u .subThread } : MtFrame).use_num = s.use_num + 1 :=
            ha.use_num
          rw [hc.use_num, huse, List.length_cons]
          push_cast
          omega
        · rw [hc.rest, ha.rest]
      · intro hok
        rw [List.filterMap_cons_some hutask, htasks hok, List.map_cons]

/-- The threads of a list have gone back to the pool. -/
structure SubsFreed (base : ℤ) (s s' : MtFrame) (place : ThreadId → Place) (loose : Finset ThreadId)
    (list : List ThreadId) : Prop where
  sound : Sound base s' place (loose \ list.toFinset)
  live_iff : ∀ u, Live s' u ↔ u ∉ list ∧ Live s u
  context_eq : ∀ u, u ∉ list → s'.context u = s.context u
  use_num : s'.use_num = s.use_num - list.length
  log_eq : s'.log = s.log
  runlist_eq : s'.runlist = s.runlist
  daemon_eq : s'.daemon = s.daemon
  curr_eq : s'.curr_thread = s.curr_thread

theorem Sound.freeSubs (hs : Sound base s place loose) (hnodup : list.Nodup)
    (hlist : ∀ u ∈ list, u ∈ loose ∧ s.parent u = none) :
    SubsFreed base s (MtFrame.freeSubs list s) place loose list := by
  induction list generalizing s loose with
  | nil =>
    refine ⟨?_, by simp [MtFrame.freeSubs], fun _ _ => rfl, by simp [MtFrame.freeSubs], rfl, rfl, rfl, rfl⟩
    simpa [MtFrame.freeSubs] using hs
  | cons sub list ih =>
    rw [List.nodup_cons] at hnodup
    obtain ⟨hmem, hparent⟩ := hlist sub List.mem_cons_self
    obtain ⟨hfree, hf⟩ := hs.freeThread hmem hparent
    have hpar : ∀ u, u ≠ sub → (s.freeThread sub).parent u = s.parent u := by
      intro u hu
      rw [hf.rest]
      exact Function.update_of_ne hu _ _
    have hne : ∀ u ∈ list, u ≠ sub := by
      rintro u hu rfl
      exact hnodup.1 hu
    have hrest := ih hfree hnodup.2 (by
      intro u hu
      rw [hpar u (hne u hu)]
      obtain ⟨hul, hup⟩ := hlist u (List.mem_cons_of_mem sub hu)
      exact ⟨Finset.mem_erase.mpr ⟨hne u hu, hul⟩, hup⟩)
    rw [MtFrame.freeSubs]
    refine ⟨?_, ?_, ?_, ?_, ?_, ?_, ?_, ?_⟩
    · have hset : loose \ (sub :: list).toFinset = loose.erase sub \ list.toFinset := by
        ext a
        simp only [Finset.mem_sdiff, List.mem_toFinset, List.mem_cons, Finset.mem_erase]
        tauto
      rw [hset]
      exact hrest.sound
    · intro u
      rw [hrest.live_iff, hf.live_iff, List.mem_cons]
      tauto
    · intro u hu
      rw [List.mem_cons, not_or] at hu
      rw [hrest.context_eq u hu.2, hf.rest]
      exact Function.update_of_ne hu.1 _ _
    · rw [hrest.use_num, hf.use_num, List.length_cons]
      push_cast
      omega
    · rw [hrest.log_eq, hf.rest]
      rfl
    · rw [hrest.runlist_eq, hf.rest]
      rfl
    · rw [hrest.daemon_eq, hf.rest]
      rfl
    · rw [hrest.curr_eq, hf.rest]
      rfl

/-- The threads of a list have become sub-threads of `t`, and runnable. -/
structure SubsStarted (base : ℤ) (s s' : MtFrame) (place : ThreadId → Place) (t : ThreadId)
    (list : List ThreadId) : Prop where
  queues : Queues base s' fun u => if u ∈ list then .runnable else place u
  pool : Pool s'
  live_iff : ∀ u, Live s' u ↔ Live s u
  sub_list_eq : s'.sub_list = Function.update s.sub_list t (s.sub_list t ++ list)
  parent_eq : ∀ u, s'.parent u = if u ∈ list then some t else s.parent u
  sub_flag_eq : ∀ u, s'.flag u .subList = if u ∈ list then true else s.flag u .subList
  log_eq : s'.log = (list.map MtEvent.runable).reverse ++ s.log
  rest : s' = { s with
    flag := s'.flag, state := s'.state, runlist := s'.runlist, waitnum := s'.waitnum,
    sub_list := s'.sub_list, parent := s'.parent, log := s'.log }

theorem addSubThread_eq {sub : ThreadId} (hflag : s.flag sub .subList = false) :
    s.addSubThread t sub =
      { s.setFlag sub .subList with
        sub_list := Function.update s.sub_list t (s.sub_list t ++ [sub])
        parent := Function.update s.parent sub (some t) } := by
  unfold MtFrame.addSubThread MtFrame.hasFlag
  rw [hflag]
  rfl

theorem Queues.startSubs (hq : Queues base s place) (hpool : Pool s) (hnodup : list.Nodup)
    (hout : ∀ u ∈ list, place u = .out) (hflag : ∀ u ∈ list, s.flag u .subList = false) :
    SubsStarted base s (MtFrame.startSubs t list s) place t list := by
  induction list generalizing s place with
  | nil =>
    refine ⟨by simpa [MtFrame.startSubs] using hq, hpool, fun _ => Iff.rfl, ?_, by simp [MtFrame.startSubs],
      by simp [MtFrame.startSubs], rfl, rfl⟩
    rw [List.append_nil, Function.update_eq_self]
    rfl
  | cons sub list ih =>
    rw [List.nodup_cons] at hnodup
    have hne : ∀ u ∈ list, u ≠ sub := by
      rintro u hu rfl
      exact hnodup.1 hu
    have hadd := addSubThread_eq (t := t) (hflag sub List.mem_cons_self)
    have haddq : Queues base (s.addSubThread t sub) place := by
      rw [hadd]
      exact ⟨hq.indexed, hq.waitnum, fun u => (hq.seat u).congr
        ⟨fun f _ hf => setFlag_of_ne s sub u hf, rfl, Iff.rfl, rfl, rfl⟩⟩
    have hfree : ∀ u, (s.addSubThread t sub).flag u .freeList = s.flag u .freeList := by
      intro u
      rw [hadd]
      exact setFlag_of_ne s sub u (by decide)
    have hlive : ∀ u, Live (s.addSubThread t sub) u ↔ Live s u := by
      intro u
      rw [Live, Live, hfree, hadd]
      rfl
    have haddp : Pool (s.addSubThread t sub) := by
      have hset : liveSet (s.addSubThread t sub) = liveSet s := by
        ext u
        rw [mem_liveSet, mem_liveSet, hlive]
      refine ⟨?_, ?_, ?_, ?_, ?_, ?_⟩
      · rw [hset, hadd]
        exact hpool.live_card
      · rw [hadd]
        exact hpool.total_le
      · rw [hadd]
        exact hpool.nodup
      · intro u hu
        rw [hfree]
        rw [hadd] at hu ⊢
        exact hpool.free u hu
      · intro u hu
        rw [hfree]
        rw [hadd] at hu
        exact hpool.fresh u hu
      · rw [hadd]
        exact hpool.heap_max
    have hsame := sameThreads_insertRunable (s.addSubThread t sub) sub
    have hsubflag : ∀ u, ((s.addSubThread t sub).insertRunable sub).flag u .subList =
        if u = sub then true else s.flag u .subList := by
      intro u
      rw [hsame.sub_flag_eq, hadd]
      exact (setFlag_flag s sub u .subList .subList).trans (by simp)
    have hrest := ih (haddq.insertRunable (hout sub List.mem_cons_self)) (haddp.congr hsame) hnodup.2
      (by
        intro u hu
        rw [Function.update_of_ne (hne u hu)]
        exact hout u (List.mem_cons_of_mem sub hu))
      (by
        intro u hu
        rw [hsubflag, if_neg (hne u hu)]
        exact hflag u (List.mem_cons_of_mem sub hu))
    have hsub : ((s.addSubThread t sub).insertRunable sub).sub_list =
        Function.update s.sub_list t (s.sub_list t ++ [sub]) := by
      rw [hsame.sub_list_eq, hadd]
    have hparent : ((s.addSubThread t sub).insertRunable sub).parent =
        Function.update s.parent sub (some t) := by
      rw [hsame.parent_eq, hadd]
    rw [MtFrame.startSubs]
    refine ⟨?_, hrest.pool, ?_, ?_, ?_, ?_, ?_, ?_⟩
    · have hplace : (fun u => if u ∈ sub :: list then Place.runnable else place u) =
          fun u => if u ∈ list then .runnable else Function.update place sub .runnable u := by
        funext u
        by_cases hu : u = sub
        · simp [hu]
        · simp [hu]
      rw [hplace]
      exact hrest.queues
    · intro u
      rw [hrest.live_iff, hsame.live_iff, hlive]
    · rw [hrest.sub_list_eq, hsub, Function.update_idem, Function.update_self, List.append_assoc,
        List.singleton_append]
    · intro u
      rw [hrest.parent_eq, hparent]
      by_cases hu : u = sub
      · simp [hu]
      · simp [hu]
    · intro u
      rw [hrest.sub_flag_eq, hsubflag]
      by_cases hu : u = sub
      · simp [hu]
      · simp [hu]
    · have hlog : ((s.addSubThread t sub).insertRunable sub).log = .runable sub :: s.log := by
        rw [hadd]
        rfl
      rw [hrest.log_eq, hlog]
      simp
    · rw [hrest.rest, hadd]
      rfl

/-- The state of `mt_exec_all_task` in which it hands over. -/
def pended (s : MtFrame) (t : ThreadId) (list : List ThreadId) : MtFrame :=
  ((MtFrame.startSubs t list s).saveContext t .waiting).insertPend t

/-- The threads that have been made for the tasks of a call are runnable, and the caller is pending. -/
theorem Sound.pended (hs : Sound base s place (insert t list.toFinset)) (hinside : s.context t = .inside)
    (ht : t ∉ list) (hnodup : list.Nodup) (hne : tasks ≠ []) (hcall : openCall t s.log = some (tasks, []))
    (htasks : list.filterMap (taskOf s) = tasks) (htask : ∀ u ∈ list, (taskOf s u).isSome = true)
    (htype : ∀ u ∈ list, s.type u = .subThread) (hparent : ∀ u ∈ list, s.parent u = none)
    (hcontext : ∀ u ∈ list, s.context u = .start) (hflag : ∀ u ∈ list, s.flag u .subList = false) :
    Sound base (pended s t list)
      (Function.update (fun u => if u ∈ list then .runnable else place u) t .pending) ∅ := by
  have hmem : ∀ u, u ∈ list → u ∈ insert t list.toFinset := by
    intro u hu
    exact Finset.mem_insert_of_mem (List.mem_toFinset.mpr hu)
  have hout : place t = .out := hs.place_of_loose (Finset.mem_insert_self t _)
  obtain ⟨htlive, htd⟩ := hs.loose_live t (Finset.mem_insert_self t _)
  have hstart := hs.queues.startSubs (t := t) hs.pool hnodup
    (fun u hu => hs.place_of_loose (hmem u hu)) hflag
  have hnil : s.sub_list t = [] := hs.sub_list_of_out hout
  have hsame := sameThreads_insertPend ((MtFrame.startSubs t list s).saveContext t .waiting) t
  -- The fields of the new frame, in terms of the old one.
  have hsub : (Analysis.pended s t list).sub_list = Function.update s.sub_list t list := by
    rw [Analysis.pended, hsame.sub_list_eq]
    exact hstart.sub_list_eq.trans (by rw [hnil, List.nil_append])
  have hpar : ∀ u, (Analysis.pended s t list).parent u = if u ∈ list then some t else s.parent u := by
    intro u
    rw [Analysis.pended, hsame.parent_eq]
    exact hstart.parent_eq u
  have hcon : (Analysis.pended s t list).context = Function.update s.context t .waiting := by
    rw [Analysis.pended, hsame.context_eq]
    change Function.update (MtFrame.startSubs t list s).context t .waiting = _
    rw [hstart.rest]
  have hty : (Analysis.pended s t list).type = s.type := by
    rw [Analysis.pended, hsame.type_eq]
    change (MtFrame.startSubs t list s).type = _
    rw [hstart.rest]
  have hstarts : ∀ u, taskOf (Analysis.pended s t list) u = taskOf s u := by
    intro u
    rw [Analysis.pended, hsame.taskOf_eq]
    change taskOf (MtFrame.startSubs t list s) u = _
    rw [taskOf, taskOf, hstart.rest]
  have hdaemon : (Analysis.pended s t list).daemon = s.daemon := by
    rw [Analysis.pended, hsame.daemon_eq]
    change (MtFrame.startSubs t list s).daemon = _
    rw [hstart.rest]
  have hresult : (Analysis.pended s t list).result = s.result := by
    rw [Analysis.pended, hsame.result_eq]
    change (MtFrame.startSubs t list s).result = _
    rw [hstart.rest]
  have hlog : (Analysis.pended s t list).log = list.reverse.map MtEvent.runable ++ s.log := by
    change (MtFrame.startSubs t list s).log = _
    rw [hstart.log_eq, List.map_reverse]
  have hlive : ∀ u, Live (Analysis.pended s t list) u ↔ Live s u := by
    intro u
    rw [Analysis.pended, hsame.live_iff]
    exact hstart.live_iff u
  have hsflag : ∀ u, (Analysis.pended s t list).flag u .subList =
      if u ∈ list then true else s.flag u .subList := by
    intro u
    rw [Analysis.pended, hsame.sub_flag_eq]
    exact hstart.sub_flag_eq u
  have hnotmem : ∀ u, u ∈ list → ∀ p, u ∉ s.sub_list p :=
    fun u hu p => hs.not_mem_sub_list (hparent u hu) p
  have hforeign : ∀ p, p ∉ list →
      ∀ e ∈ list.reverse.map MtEvent.runable, concerns p e = false := by
    intro p hp e he
    obtain ⟨u, hu, rfl⟩ := List.mem_map.mp he
    have hne' : u ≠ p := by
      rintro rfl
      exact hp (List.mem_reverse.mp hu)
    simpa [concerns] using hne'
  refine ⟨?_, ?_, ?_, by simp, ?_, ?_, ?_, ?_, ?_, ?_, ?_⟩
  · apply Queues.insertPend
    · exact ⟨hstart.queues.indexed, hstart.queues.waitnum, fun u => (hstart.queues.seat u).congr
        ⟨fun _ _ _ => rfl, rfl, Iff.rfl, rfl, rfl⟩⟩
    · rw [if_neg ht, hout]
  · have hsaved : Pool ((MtFrame.startSubs t list s).saveContext t .waiting) :=
      ⟨hstart.pool.live_card, hstart.pool.total_le, hstart.pool.nodup, hstart.pool.free,
        hstart.pool.fresh, hstart.pool.heap_max⟩
    exact hsaved.congr hsame
  · intro u
    rw [hlive, hdaemon]
    by_cases hut : u = t
    · subst hut
      simp [htlive, htd]
    · rw [Function.update_of_ne hut]
      by_cases hul : u ∈ list
      · obtain ⟨hl, hd⟩ := hs.loose_live u (hmem u hul)
        simp [hul, hl, hd]
      · rw [if_neg hul, hs.out_iff]
        simp [hut, hul]
  · rw [hlive, hdaemon]
    exact hs.daemon_live
  · rw [hcon, hdaemon, Function.update_of_ne (Ne.symm htd)]
    exact hs.daemon_context
  · intro u hu
    rw [hlive] at hu
    obtain ⟨h1, h2, h3, h4⟩ := hs.idle u hu
    have hut : u ≠ t := by
      rintro rfl
      exact hu htlive
    have hul : u ∉ list := fun hul => hu (hs.loose_live u (hmem u hul)).1
    rw [hsub, hpar, hcon, hsflag, Function.update_of_ne hut, if_neg hul, Function.update_of_ne hut,
      if_neg hul]
    exact ⟨h1, h2, h3, h4⟩
  · refine ⟨?_, ?_, ?_, ?_, ?_, ?_, ?_⟩
    · intro u p
      rw [hpar, hsub]
      by_cases hpt : p = t
      · subst hpt
        rw [Function.update_self]
        by_cases hul : u ∈ list
        · simp [hul]
        · rw [if_neg hul, hs.family.parent_iff, hnil]
          simp [hul]
      · rw [Function.update_of_ne hpt]
        by_cases hul : u ∈ list
        · rw [if_pos hul]
          simp [hnotmem u hul p, Ne.symm hpt]
        · rw [if_neg hul]
          exact hs.family.parent_iff u p
    · intro p
      rw [hsub]
      by_cases hpt : p = t
      · subst hpt
        rw [Function.update_self]
        exact hnodup
      · rw [Function.update_of_ne hpt]
        exact hs.family.nodup p
    · intro u p hu
      rw [hsub] at hu
      rw [hlive]
      by_cases hpt : p = t
      · subst hpt
        rw [Function.update_self] at hu
        exact (hs.loose_live u (hmem u hu)).1
      · rw [Function.update_of_ne hpt] at hu
        exact hs.family.live u p hu
    · intro u p hu
      rw [hsub] at hu
      rw [hsflag]
      by_cases hul : u ∈ list
      · rw [if_pos hul]
      · rw [if_neg hul]
        by_cases hpt : p = t
        · subst hpt
          rw [Function.update_self] at hu
          exact absurd hu hul
        · rw [Function.update_of_ne hpt] at hu
          exact hs.family.flag u p hu
    · intro u p hu
      rw [hsub] at hu
      rw [hty]
      by_cases hpt : p = t
      · subst hpt
        rw [Function.update_self] at hu
        exact htype u hu
      · rw [Function.update_of_ne hpt] at hu
        exact hs.family.type u p hu
    · intro u p hu
      rw [hsub] at hu
      rw [hstarts]
      by_cases hpt : p = t
      · subst hpt
        rw [Function.update_self] at hu
        exact htask u hu
      · rw [Function.update_of_ne hpt] at hu
        exact hs.family.task u p hu
    · intro p hp
      rw [hsub] at hp
      rw [hcon]
      by_cases hpt : p = t
      · rw [hpt, Function.update_self]
      · rw [Function.update_of_ne hpt] at hp ⊢
        exact hs.family.waiting p hp
  · intro p hp
    by_cases hpt : p = t
    · subst hpt
      obtain ⟨hst, hpr, hco⟩ := append_of_not_concerns [] (hforeign p ht)
      have hlist : (Analysis.pended s p list).sub_list p = list := by
        rw [hsub, Function.update_self]
      have hmap : list.filterMap (taskOf (Analysis.pended s p list)) = tasks := by
        rw [← htasks]
        exact List.filterMap_congr fun u _ => hstarts u
      have hfilter : (list.filter fun u => (Analysis.pended s p list).context u = .start) = list := by
        apply List.filter_eq_self.mpr
        intro u hu
        have hup : u ≠ p := by
          rintro rfl
          exact ht hu
        rw [hcon, Function.update_of_ne hup, hcontext u hu]
        rfl
      refine ⟨tasks, list.reverse.map MtEvent.runable ++ [], ?_, hne, ?_, ?_, ?_, ?_, ?_⟩
      · rw [hlog]
        exact openCall_append_of_not_concerns (hforeign p ht) hcall
      · rw [hst, hlist, hfilter, hmap]
        exact List.Perm.refl tasks
      · rw [hpr, hlist, hmap]
        exact List.Perm.refl tasks
      · rw [hco, Function.update_self]
        rfl
      · rw [Function.update_self]
        exact fun hpend => absurd rfl hpend
      · rw [Function.update_self]
        rfl
    · rw [hcon, Function.update_of_ne hpt] at hp
      obtain ⟨tasks', since, hj⟩ := hs.joins p hp
      have hpl : p ∉ list := by
        intro hpl
        rw [hcontext p hpl] at hp
        cases hp
      refine ⟨tasks', _, hj.skip (hforeign p hpl) hlog ?_ (fun u _ => hstarts u) ?_ ?_⟩
      · rw [hsub, Function.update_of_ne hpt]
      · intro u hu
        rw [hcon]
        by_cases hut : u = t
        · subst hut
          simp [hinside]
        · rw [Function.update_of_ne hut]
      · rw [Function.update_of_ne hpt, if_neg hpl]
  · rw [hlog]
    exact (runable_append list.reverse s.log).1 hs.returns
  · rw [hlog, hresult, (runable_append list.reverse s.log).2]
    exact hs.results

theorem startSubs_curr (t : ThreadId) (list : List ThreadId) (s : MtFrame) :
    (MtFrame.startSubs t list s).curr_thread = s.curr_thread := by
  induction list generalizing s with
  | nil => rfl
  | cons sub list ih =>
    rw [MtFrame.startSubs, ih]
    unfold MtFrame.addSubThread
    dsimp only
    split
    · rfl
    · rfl

/-- A call of `mt_exec_all_task` that cannot get all its threads returns -1 at once, and gives back those
that it has got. -/
structure ExecFailed (s s' : MtFrame) (tasks : List TaskId) : Prop where
  log_eq : s'.log = .returned s.curr_thread (-1) :: .called s.curr_thread tasks :: s.log
  runlist_eq : s'.runlist = s.runlist
  curr_eq : s'.curr_thread = s.curr_thread
  live_iff : ∀ u, Live s' u ↔ Live s u
  use_num : s'.use_num = s.use_num

section Exec

variable {s₁ : MtFrame} {new : List ThreadId}

theorem SubsCreated.context_eq (hc : SubsCreated base s s₁ place loose new) :
    s₁.context = s.context := by
  rw [hc.rest]

theorem SubsCreated.parent_eq (hc : SubsCreated base s s₁ place loose new) : s₁.parent = s.parent := by
  rw [hc.rest]

theorem SubsCreated.log_eq (hc : SubsCreated base s s₁ place loose new) : s₁.log = s.log := by
  rw [hc.rest]

/-- Not all threads could be made, and those that were are given back. -/
theorem SubsCreated.freed (hc : SubsCreated base s s₁ place {t} new) (hs : Sound base s place {t}) :
    Sound base (MtFrame.freeSubs new s₁) place {t} ∧ SubsFreed base s₁ (MtFrame.freeSubs new s₁) place
      ({t} ∪ new.toFinset) new ∧ ∀ u, Live (MtFrame.freeSubs new s₁) u ↔ Live s u := by
  have hnot : t ∉ new := fun hmem =>
    hc.not_live t hmem (hs.loose_live t (Finset.mem_singleton_self t)).1
  have hf := hc.sound.freeSubs hc.nodup (by
    intro u hu
    refine ⟨Finset.mem_union_right _ (List.mem_toFinset.mpr hu), ?_⟩
    rw [hc.parent_eq]
    exact (hs.idle u (hc.not_live u hu)).2.1)
  have hloose : ({t} ∪ new.toFinset) \ new.toFinset = {t} := by
    rw [Finset.union_sdiff_right]
    apply Finset.sdiff_eq_self_of_disjoint
    simpa using hnot
  have hsound := hf.sound
  rw [hloose] at hsound
  refine ⟨hsound, hf, ?_⟩
  intro u
  rw [hf.live_iff, hc.live_iff]
  constructor
  · rintro ⟨hnew, hor⟩
    exact hor.resolve_left hnew
  · intro hl
    exact ⟨fun hmem => hc.not_live u hmem hl, Or.inr hl⟩

/-- All threads have been made, and the caller hands over. -/
theorem SubsCreated.pended (hc : SubsCreated base s s₁ place {t} new) (hs : Sound base s place {t})
    (hinside : s.context t = .inside) (hne : tasks ≠ []) (hcall : openCall t s.log = some (tasks, []))
    (htasks : new.filterMap (taskOf s₁) = tasks) :
    Steady base (Analysis.pended s₁ t new).threadSchdule := by
  have hsound : Sound base s₁ place (insert t new.toFinset) := hc.sound
  have hidle : ∀ u ∈ new, s.sub_list u = [] ∧ s.parent u = none ∧ s.context u = .start ∧
      s.flag u .subList = false := fun u hu => hs.idle u (hc.not_live u hu)
  apply Sound.threadSchdule
  apply hsound.pended
  · rw [hc.context_eq]
    exact hinside
  · exact fun hmem => hc.not_live t hmem (hs.loose_live t (Finset.mem_singleton_self t)).1
  · exact hc.nodup
  · exact hne
  · rw [hc.log_eq]
    exact hcall
  · exact htasks
  · exact hc.task
  · exact hc.type
  · intro u hu
    rw [hc.parent_eq]
    exact (hidle u hu).2.1
  · intro u hu
    rw [hc.context_eq]
    exact (hidle u hu).2.2.1
  · intro u hu
    rw [hc.flag_eq u .subList (by decide)]
    exact (hidle u hu).2.2.2

end Exec

/-- The threads that wait in `mt_exec_all_task` have nothing to do with a call by the running thread. -/
theorem not_concerns_call (ht : s.context t = .inside) {e : MtEvent}
    (he : ∀ p, concerns p e = true → p = t) : ∀ p, s.context p = .waiting → concerns p e = false := by
  intro p hp
  by_contra hne
  rw [Bool.not_eq_false] at hne
  rw [he p hne, ht] at hp
  cases hp

/-- `mt_exec_all_task` by the running thread. -/
theorem Steady.execAllTask (h : Steady base s) (hcurr : s.curr_thread ≠ s.daemon)
    (tasks : List (TaskId × Bool)) :
    Steady base (s.execAllTask tasks) ∧
      ((MtFrame.createSubs tasks [] (s.record (.called s.curr_thread (tasks.map Prod.fst)))).2.2 = false →
        ExecFailed s (s.execAllTask tasks) (tasks.map Prod.fst)) := by
  obtain ⟨place, hs, hcontext, hlive⟩ := h
  rw [running_of_ne hcurr] at hs
  have hcalled : Sound base (s.record (.called s.curr_thread (tasks.map Prod.fst))) place
      {s.curr_thread} := by
    apply hs.record
    · exact not_concerns_call hcontext (by simp [concerns, eq_comm])
    · intro p heq
      cases heq
    · exact hs.results
  by_cases hnil : tasks = []
  · subst hnil
    refine ⟨⟨place, ?_, hcontext, hlive⟩, fun hfail => (by cases hfail)⟩
    have hrun : running (s.execAllTask []) = {s.curr_thread} := running_of_ne hcurr
    rw [hrun]
    apply hcalled.record
    · exact not_concerns_call hcontext (by simp [concerns, eq_comm])
    · intro p heq
      cases heq
      refine ⟨[], [], ?_, List.Perm.nil, List.Perm.nil, rfl⟩
      simp [MtFrame.record, openCall]
    · exact hcalled.results
  · obtain ⟨s₁, new, ok, hcreate, hc, htasks⟩ := hcalled.createSubs tasks []
    have hcurr₁ : s₁.curr_thread = s.curr_thread := by rw [hc.rest]; rfl
    rw [List.nil_append] at hcreate
    unfold MtFrame.execAllTask
    dsimp only
    rw [if_neg hnil, hcreate]
    cases ok with
    | false =>
      obtain ⟨hsf, hf, hlivef⟩ := hc.freed hcalled
      have hcurrf : (MtFrame.freeSubs new s₁).curr_thread = s.curr_thread := hf.curr_eq.trans hcurr₁
      have hdaemon : (MtFrame.freeSubs new s₁).daemon = s.daemon := by
        rw [hf.daemon_eq, hc.rest]
        rfl
      have hctxf : (MtFrame.freeSubs new s₁).context s.curr_thread = .inside := by
        rw [hf.context_eq _ (fun hmem => hc.not_live _ hmem hlive), hc.context_eq]
        exact hcontext
      constructor
      · refine ⟨place, ?_, ?_, ?_⟩
        · have hrun : running ((MtFrame.freeSubs new s₁).record (.returned s.curr_thread (-1))) =
              {s.curr_thread} := by
            rw [← hcurrf]
            apply running_of_ne
            change (MtFrame.freeSubs new s₁).curr_thread ≠ (MtFrame.freeSubs new s₁).daemon
            rw [hcurrf, hdaemon]
            exact hcurr
          rw [hrun]
          apply hsf.record
          · exact not_concerns_call hctxf (by simp [concerns, eq_comm])
          · intro p heq
            cases heq
          · exact hsf.results
        · change (MtFrame.freeSubs new s₁).context (MtFrame.freeSubs new s₁).curr_thread = .inside
          rw [hcurrf]
          exact hctxf
        · change Live (MtFrame.freeSubs new s₁) (MtFrame.freeSubs new s₁).curr_thread
          rw [hlivef, hcurrf]
          exact hlive
      · intro _
        refine ⟨?_, ?_, hcurrf, hlivef, ?_⟩
        · change .returned s.curr_thread (-1) :: (MtFrame.freeSubs new s₁).log = _
          rw [hf.log_eq, hc.log_eq]
          rfl
        · change (MtFrame.freeSubs new s₁).runlist = _
          rw [hf.runlist_eq, hc.rest]
          rfl
        · change (MtFrame.freeSubs new s₁).use_num = _
          rw [hf.use_num, hc.use_num]
          change s.use_num + new.length - new.length = _
          omega
    | true =>
      refine ⟨?_, fun hfail => (by cases hfail)⟩
      have hwait : (MtFrame.startSubs s.curr_thread new s₁).wait =
          (pended s₁ s.curr_thread new).threadSchdule := by
        unfold MtFrame.wait pended
        rw [startSubs_curr, hcurr₁]
      dsimp only
      rw [hwait]
      have hne : tasks.map Prod.fst ≠ [] := by simpa using hnil
      apply hc.pended hcalled hcontext hne
      · simp [MtFrame.record, openCall]
      · exact htasks rfl

/-! ## Runs -/

theorem Steady.step (h : Steady base s) (a : MtStep) : Steady base (s.step a) := by
  unfold MtFrame.step
  split
  · rename_i hcan
    cases a with
    | createThread initial => exact h.createThread initial
    | sleep ms now => exact h.sleep (by simpa [MtFrame.canStep] using hcan) ms now
    | kqueueSchedule added timeout now =>
      exact h.kqueueSchedule (by simpa [MtFrame.canStep] using hcan) added timeout now
    | waitNotify timeout now => exact h.ioWait (by simpa [MtFrame.canStep] using hcan) _
    | execAllTask tasks => exact (h.execAllTask (by simpa [MtFrame.canStep] using hcan) tasks).1
    | notifyThread thread => exact h.notifyThread thread
    | eventNotify owner => exact h.eventNotify owner
    | swapDaemonThread => exact h.swapDaemonThread
    | exit rc =>
      have hboth : s.curr_thread ≠ s.daemon ∧ s.curr_thread ≠ s.primo := by
        simpa [MtFrame.canStep] using hcan
      exact h.exit hboth.1 rc
    | wakeupTimeout now => exact h.wakeupTimeout now
    | loopEnd => exact h.loopEnd (by simpa [MtFrame.canStep] using hcan)
  · exact h

theorem Steady.run (h : Steady base s) (steps : List MtStep) :
    Steady base (steps.foldl MtFrame.step s) := by
  induction steps generalizing s with
  | nil => exact h
  | cons a steps ih => exact ih (h.step a)

/-- The frame after `InitFrame`, with at most as many threads in its pool as it asks for. -/
theorem Steady.init {made : ℕ} (hpos : 1 ≤ made) (hmade : made ≤ DEFAULT_THREAD_NUM) (max_num : ℕ)
    (waitnum : ℤ) : Steady waitnum (MtFrame.initFrame made max_num waitnum) := by
  have hne : (0 : ℕ) ≠ made := by omega
  have hmem : ∀ t, t ∈ (List.range made).tail ↔ 1 ≤ t ∧ t < made := by
    intro t
    rw [List.range_eq_range', List.tail_range', List.mem_range'_1]
    omega
  have hfree : ∀ t : ℕ, (MtFrame.initFrame made max_num waitnum).flag t .freeList = true ↔
      1 ≤ t ∧ t < made := by
    intro t
    simp [MtFrame.initFrame]
  have hflag : ∀ (t : ℕ) (f : ThreadFlag), f ≠ .freeList →
      (MtFrame.initFrame made max_num waitnum).flag t f = false := by
    intro t f hf
    simp [MtFrame.initFrame, hf]
  have hlive : ∀ t : ℕ, Live (MtFrame.initFrame made max_num waitnum) t ↔ t = 0 ∨ t = made := by
    intro t
    rw [Live, ← Bool.not_eq_true, hfree]
    change t < made + 1 ∧ ¬ (1 ≤ t ∧ t < made) ↔ t = 0 ∨ t = made
    omega
  have hset : liveSet (MtFrame.initFrame made max_num waitnum) = {0, made} := by
    ext t
    rw [mem_liveSet, hlive]
    simp
  have hrun : running (MtFrame.initFrame made max_num waitnum) = {made} := by
    apply running_of_ne
    change made ≠ 0
    omega
  have hheap : IsHeap (MtFrame.initFrame made max_num waitnum).sleeplist fun _ => 0 := by
    have hempty := IsHeap.empty (ε := ThreadId) 100000 fun _ => 0
    change IsHeap ((HeapList.new 100000).heapResize (max_num * 2)) _
    unfold HeapList.heapResize
    split
    · exact hempty
    · exact ⟨⟨hempty.indexed.filled, hempty.indexed.placed⟩, hempty.ordered⟩
  have hindex : ∀ t, (MtFrame.initFrame made max_num waitnum).sleeplist.index t = 0 := by
    intro t
    change ((HeapList.new 100000).heapResize (max_num * 2)).index t = 0
    unfold HeapList.heapResize
    split
    · rfl
    · rfl
  refine ⟨fun _ => .out, ?_, by simp [MtFrame.initFrame], (hlive made).mpr (Or.inr rfl)⟩
  rw [hrun]
  refine ⟨⟨hheap.indexed, by simp [MtFrame.initFrame], ?_⟩, ⟨?_, ?_, ?_, ?_, ?_, ?_⟩, ?_, ?_,
    (hlive 0).mpr (Or.inl rfl), ?_, ?_, ?_, ?_, ?_, rfl⟩
  · intro t
    refine ⟨hflag t _ (by decide), rfl, hflag t _ (by decide), ?_, hflag t _ (by decide), rfl,
      hflag t _ (by decide), rfl⟩
    simp [hindex, Place.isSleeping]
  · rw [hset, Finset.card_pair hne]
    change 2 + (List.range made).tail.length = made + 1
    rw [List.length_tail, List.length_range]
    omega
  · exact le_max_of_le_left hmade
  · exact (List.tail_sublist _).nodup List.nodup_range
  · intro t ht
    obtain ⟨h1, h2⟩ := (hmem t).mp ht
    exact ⟨Nat.lt_succ_of_lt h2, (hfree t).mpr ⟨h1, h2⟩⟩
  · intro t ht
    rw [← Bool.not_eq_true, hfree]
    rintro ⟨-, hlt⟩
    exact absurd (Nat.lt_succ_of_lt hlt) (not_lt.mpr ht)
  · change max 100000 (max_num * 2) ≤ ((HeapList.new 100000).heapResize (max_num * 2)).max
    unfold HeapList.heapResize
    split
    · exact max_le le_rfl ‹_›
    · rename_i hlt
      exact max_le (not_le.mp hlt).le le_rfl
  · intro t
    rw [hlive]
    simp only [Finset.mem_singleton, true_iff]
    change t = made ∨ t = 0 ∨ _
    tauto
  · intro t ht
    rw [Finset.mem_singleton] at ht
    subst ht
    exact ⟨(hlive _).mpr (Or.inr rfl), hne.symm⟩
  · change (if (0 : ℕ) = made then Context.inside else .start) ≠ .waiting
    split
    · simp
    · simp
  · intro t ht
    refine ⟨rfl, rfl, ?_, hflag t _ (by decide)⟩
    rw [hlive, not_or] at ht
    exact if_neg ht.2
  · refine ⟨?_, fun _ => List.nodup_nil, ?_, ?_, ?_, ?_, ?_⟩
    · intro u p
      simp [MtFrame.initFrame]
    all_goals
      simp [MtFrame.initFrame]
  · intro p hp
    exfalso
    change (if p = made then Context.inside else .start) = .waiting at hp
    split at hp
    · cases hp
    · cases hp
  · intro p log' hsuf
    exact absurd hsuf (by simp [MtFrame.initFrame])

/-! ## Where the threads of a run are -/

/-- A thread is in the array of `_sleeplist`. -/
def InSleeplist (s : MtFrame) (t : ThreadId) : Prop :=
  ∃ i, 1 ≤ i ∧ i ≤ s.sleeplist.count ∧ s.sleeplist.list i = some t

/-- A thread is running, if `p` is `out`, or in the queue that `p` says and in no other, and its flags
say so. -/
structure AtPlace (s : MtFrame) (t : ThreadId) (p : Place) : Prop where
  running_iff : t = s.curr_thread ↔ p = .out
  run_count : s.runlist.count t = if p = .runnable then 1 else 0
  sleep_iff : InSleeplist s t ↔ p.isSleeping = true
  io_count : s.iolist.count t = if p = .sleeping true then 1 else 0
  pend_count : s.pend_list.count t = if p = .pending then 1 else 0
  run_flag : s.flag t .runList = decide (p = .runnable)
  sleep_flag : s.flag t .sleepList = p.isSleeping
  io_flag : s.flag t .ioList = decide (p = .sleeping true)
  pend_flag : s.flag t .pendList = decide (p = .pending)

/-- Every live thread other than the daemon is at one place, `_waitnum` is the length of `_runlist`, and
the thread that runs has neither `IO_LIST` nor `SLEEP_LIST`. -/
structure ThreadsPlaced (s : MtFrame) : Prop where
  place : ∀ t, Live s t → t ≠ s.daemon → ∃ p, AtPlace s t p
  waitnum : s.waitnum = s.runlist.length
  resumed : s.flag s.curr_thread .ioList = false ∧ s.flag s.curr_thread .sleepList = false

theorem Queues.inSleeplist_iff (hq : Queues base s place) (t : ThreadId) :
    InSleeplist s t ↔ (place t).isSleeping = true := by
  rw [← (hq.seat t).sleep_index]
  constructor
  · rintro ⟨i, h1, hin, hlist⟩
    obtain ⟨e, he, -, hei⟩ := hq.indexed.filled i h1 hin
    rw [hlist] at he
    cases he
    omega
  · intro hne
    obtain ⟨hle, hlist⟩ := hq.indexed.placed t (by simp) hne
    exact ⟨s.sleeplist.index t, by omega, hle, hlist⟩

theorem Steady.placed_iff (h : Steady base s) : ThreadsPlaced s ↔ base = 0 := by
  obtain ⟨place, hs, -, hlive⟩ := h
  have hwait := hs.queues.waitnum
  constructor
  · intro hplaced
    have hw := hplaced.waitnum
    omega
  · rintro rfl
    have hout : place s.curr_thread = .out := by
      rw [hs.out_iff]
      by_cases hd : s.curr_thread = s.daemon
      · exact Or.inr (Or.inl hd)
      · left
        rw [running_of_ne hd]
        exact Finset.mem_singleton_self _
    refine ⟨?_, by omega, ?_⟩
    · intro t ht hd
      have hseat := hs.queues.seat t
      refine ⟨place t, ?_, hseat.run_count, hs.queues.inSleeplist_iff t, hseat.io_count,
        hseat.pend_count, hseat.run_flag, hseat.sleep_flag, hseat.io_flag, hseat.pend_flag⟩
      constructor
      · rintro rfl
        exact hout
      · intro hto
        rcases (hs.out_iff t).mp hto with hmem | hdaemon | hdead
        · unfold running at hmem
          split at hmem
          · cases hmem
          · exact Finset.mem_singleton.mp hmem
        · exact absurd hdaemon hd
        · exact absurd ht hdead
    · have hseat := hs.queues.seat s.curr_thread
      rw [hout] at hseat
      exact ⟨hseat.io_flag, hseat.sleep_flag⟩

/-- INTERNAL: In every run, every live thread is at one place, its flags say which, and the thread that
is resumed has left the queues; `_waitnum` is the length of `_runlist` exactly when it was 0 at first. -/
theorem threadsPlaced_iff {made : ℕ} (hpos : 1 ≤ made) (hmade : made ≤ DEFAULT_THREAD_NUM)
    (max_num : ℕ) (waitnum : ℤ) (steps : List MtStep) :
    ThreadsPlaced (steps.foldl MtFrame.step (MtFrame.initFrame made max_num waitnum)) ↔ waitnum = 0 :=
  ((Steady.init hpos hmade max_num waitnum).run steps).placed_iff

/-- A frame whose memory was zeroed, with one thread that waits for input, after an event for it. -/
theorem threadsPlaced_event :
    ThreadsPlaced ([.kqueueSchedule true 100 5, .eventNotify (some 3)].foldl MtFrame.step
      (MtFrame.initFrame 3 800000 0)) :=
  (threadsPlaced_iff (by decide) (by decide) 800000 0 _).mpr rfl

/-- A frame in whose memory `_waitnum` is 7, after a thread has been created. -/
theorem waitnum_not_set :
    ¬ ThreadsPlaced ([.createThread true].foldl MtFrame.step (MtFrame.initFrame 3 800000 7)) := by
  intro h
  have hwait := h.waitnum
  revert hwait
  decide

/-! ## What `mt_exec_all_task` waits for -/

/-- What has happened since a call is the end of what has happened. -/
theorem openCall_split {since : List MtEvent} (hcall : openCall p log = some (tasks, since)) :
    ∃ before, log = since ++ .called p tasks :: before := by
  induction log generalizing since with
  | nil => cases hcall
  | cons e log ih =>
    have hlater : (openCall p log).map (fun c => (c.1, e :: c.2)) = some (tasks, since) →
        ∃ before, e :: log = since ++ .called p tasks :: before := by
      intro hmap
      obtain ⟨⟨tasks', since'⟩, hc, heq⟩ := Option.map_eq_some_iff.mp hmap
      cases heq
      obtain ⟨before, hlog⟩ := ih hc
      exact ⟨before, by rw [hlog, List.cons_append]⟩
    by_cases hforeign : concerns p e = false
    · rw [openCall_cons_of_not_concerns hforeign] at hcall
      exact hlater hcall
    · cases e with
      | called t tasks' =>
        have htp : t = p := by simpa [concerns] using hforeign
        rw [openCall, if_pos htp] at hcall
        cases hcall
        exact ⟨log, by rw [htp, List.nil_append]⟩
      | returned t rc =>
        have htp : t = p := by simpa [concerns] using hforeign
        rw [openCall, if_pos htp] at hcall
        cases hcall
      | started parent task => exact hlater hcall
      | processed parent task rc => exact hlater hcall
      | runable t => exact hlater hcall

theorem resultOf_isSome {parent : Option ThreadId} {rc : ℤ} (hmem : MtEvent.processed parent task rc ∈ log) :
    (resultOf log task).isSome = true := by
  induction log with
  | nil => cases hmem
  | cons e log ih =>
    rcases List.mem_cons.mp hmem with rfl | hlater
    · simp [resultOf]
    · cases e with
      | processed parent' task' rc' =>
        by_cases heq : task = task'
        · simp [resultOf, heq]
        · simpa [resultOf, heq] using ih hlater
      | started parent' task' => exact ih hlater
      | called t tasks => exact ih hlater
      | returned t rc' => exact ih hlater
      | runable t => exact ih hlater

theorem resultOf_of_processed {since : List MtEvent} (hcall : openCall p log = some (tasks, since))
    (htask : task ∈ processedBy p since) :
    (resultOf log task).isSome = true := by
  obtain ⟨before, rfl⟩ := openCall_split hcall
  obtain ⟨e, he, hsome⟩ := List.mem_filterMap.mp htask
  cases e with
  | processed parent task' rc =>
    dsimp only at hsome
    split at hsome
    · cases hsome
      exact resultOf_isSome (List.mem_append_left _ he)
    · cases hsome
  | started parent task' => cases hsome
  | called t tasks' => cases hsome
  | returned t rc => cases hsome
  | runable t => cases hsome

/-- INTERNAL: In every run, whenever `mt_exec_all_task` returns 0, every task has been started and
processed once since the call, its result is set, and the caller has become runnable once, or had nothing
to wait for; and a call that does not get all its threads returns -1 at once and has changed nothing. -/
theorem execAllTask_joins {made : ℕ} (hpos : 1 ≤ made) (hmade : made ≤ DEFAULT_THREAD_NUM)
    (max_num : ℕ) (waitnum : ℤ) (steps : List MtStep) :
    let s := steps.foldl MtFrame.step (MtFrame.initFrame made max_num waitnum)
    (∀ p log, (MtEvent.returned p 0 :: log) <:+ s.log →
      ∃ tasks since, openCall p log = some (tasks, since) ∧ tasks.Perm (startedBy p since) ∧
        tasks.Perm (processedBy p since) ∧ (∀ task ∈ tasks, (resultOf log task).isSome = true) ∧
        since.count (.runable p) = if tasks = [] then 0 else 1) ∧
    s.result = resultOf s.log ∧
    ∀ tasks, s.curr_thread ≠ s.daemon →
      (MtFrame.createSubs tasks [] (s.record (.called s.curr_thread (tasks.map Prod.fst)))).2.2 = false →
        ExecFailed s (s.step (.execAllTask tasks)) (tasks.map Prod.fst) := by
  intro s
  have hsteady := (Steady.init hpos hmade max_num waitnum).run steps
  refine ⟨?_, ?_, ?_⟩
  · intro p log hsuf
    obtain ⟨place, hs, -⟩ := hsteady
    obtain ⟨tasks, since, hcall, hstarted, hprocessed, hruns⟩ := hs.returns p log hsuf
    refine ⟨tasks, since, hcall, hstarted, hprocessed, ?_, hruns⟩
    intro task htask
    exact resultOf_of_processed hcall (hprocessed.mem_iff.mp htask)
  · obtain ⟨place, hs, -⟩ := hsteady
    exact hs.results
  · intro tasks hcurr hfail
    have hstep : s.step (.execAllTask tasks) = s.execAllTask tasks := by
      unfold MtFrame.step
      rw [if_pos (by simpa [MtFrame.canStep] using hcurr)]
      rfl
    rw [hstep]
    exact (hsteady.execAllTask hcurr tasks).2 hfail

/-- The primordial thread, here 4, has two tasks processed, and goes on when the second one is. -/
theorem execAllTask_two_tasks :
    ([.execAllTask [(7, true), (8, true)], .exit 5, .exit 6].foldl MtFrame.step
        (MtFrame.initFrame 4 800000 0)).log.head? = some (.returned 4 0) ∧
      ∃ tasks since, openCall 4 ([.execAllTask [(7, true), (8, true)], .exit 5, .exit 6].foldl MtFrame.step
          (MtFrame.initFrame 4 800000 0)).log.tail = some (tasks, since) ∧
        tasks.Perm (processedBy 4 since) := by
  refine ⟨by decide, ?_⟩
  obtain ⟨tasks, since, hcall, -, hprocessed, -⟩ :=
    (execAllTask_joins (show 1 ≤ 4 by decide) (by decide) 800000 0
      [.execAllTask [(7, true), (8, true)], .exit 5, .exit 6]).1 4 _
      ⟨[], List.nil_append _⟩
  exact ⟨tasks, since, hcall, hprocessed⟩

/-- A call without tasks returns 0, and the caller has not become runnable in the meantime. -/
theorem execAllTask_no_tasks :
    ¬ ∀ p log, (MtEvent.returned p 0 :: log) <:+
        ([.execAllTask []].foldl MtFrame.step (MtFrame.initFrame 4 800000 0)).log →
      ∃ tasks since, openCall p log = some (tasks, since) ∧ since.count (.runable p) = 1 := by
  intro h
  obtain ⟨tasks, since, hcall, hcount⟩ := h 4 [.called 4 []] ⟨[], rfl⟩
  cases hcall
  cases hcount

end FStack.Analysis
