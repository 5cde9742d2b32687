import FStack.Analysis.HeapOrder
import FStack.Model.MicroThread
import Mathlib.Order.Interval.Finset.Nat

/-!
# Where the threads are

Abstractly, a thread is in one of the queues of the frame, or in none: `Place`.  `Queues` says that the
lists, the heap and the flags of a frame agree with a map from threads to places; every operation on the
queues moves one thread, and the map follows it.
-/

set_option autoImplicit false

namespace FStack.Analysis

open FStack.Prelude FStack.Model

variable {f g : ThreadFlag} {rest : List ThreadId} {h : HeapList ThreadId}

/-- Where a thread waits; a sleeping thread can be in `_iolist` too. -/
inductive Place where
  | out
  | runnable
  | sleeping (io : Bool)
  | pending
deriving DecidableEq, Repr

def Place.isSleeping : Place → Bool
  | .sleeping _ => true
  | _ => false

/-- The queues and the flags of a frame put a thread at a place. -/
structure Seat (s : MtFrame) (t : ThreadId) (p : Place) : Prop where
  run_flag : s.flag t .runList = decide (p = .runnable)
  run_count : s.runlist.count t = if p = .runnable then 1 else 0
  sleep_flag : s.flag t .sleepList = p.isSleeping
  sleep_index : s.sleeplist.index t ≠ 0 ↔ p.isSleeping = true
  io_flag : s.flag t .ioList = decide (p = .sleeping true)
  io_count : s.iolist.count t = if p = .sleeping true then 1 else 0
  pend_flag : s.flag t .pendList = decide (p = .pending)
  pend_count : s.pend_list.count t = if p = .pending then 1 else 0

/-- The queues and the flags put every thread where `place` says, and `_waitnum` counts the runnable
threads from `base` on. -/
structure Queues (base : ℤ) (s : MtFrame) (place : ThreadId → Place) : Prop where
  indexed : Indexed s.sleeplist none
  waitnum : s.waitnum = base + s.runlist.length
  seat : ∀ t, Seat s t (place t)

variable {base : ℤ} {s s' : MtFrame} {place : ThreadId → Place} {t u : ThreadId} {p : Place}

/-- The queues, and their flags, have not changed for a thread. -/
structure SameSeat (s s' : MtFrame) (t : ThreadId) : Prop where
  flag_eq : ∀ f, f ≠ .freeList → f ≠ .subList → s'.flag t f = s.flag t f
  run_count_eq : s'.runlist.count t = s.runlist.count t
  index_iff : s'.sleeplist.index t = 0 ↔ s.sleeplist.index t = 0
  io_count_eq : s'.iolist.count t = s.iolist.count t
  pend_count_eq : s'.pend_list.count t = s.pend_list.count t

theorem Seat.congr (h : Seat s t p) (hsame : SameSeat s s' t) : Seat s' t p where
  run_flag := (hsame.flag_eq _ (by decide) (by decide)).trans h.run_flag
  run_count := hsame.run_count_eq.trans h.run_count
  sleep_flag := (hsame.flag_eq _ (by decide) (by decide)).trans h.sleep_flag
  sleep_index := (not_congr hsame.index_iff).trans h.sleep_index
  io_flag := (hsame.flag_eq _ (by decide) (by decide)).trans h.io_flag
  io_count := hsame.io_count_eq.trans h.io_count
  pend_flag := (hsame.flag_eq _ (by decide) (by decide)).trans h.pend_flag
  pend_count := hsame.pend_count_eq.trans h.pend_count

/-- One thread moves. -/
theorem Queues.move (hq : Queues base s place) (hi : Indexed s'.sleeplist none)
    (hw : s'.waitnum = base + s'.runlist.length) (hseat : Seat s' t p)
    (hsame : ∀ u, u ≠ t → SameSeat s s' u) : Queues base s' (Function.update place t p) := by
  refine ⟨hi, hw, ?_⟩
  intro u
  by_cases hu : u = t
  · subst hu
    rw [Function.update_self]
    exact hseat
  · rw [Function.update_of_ne hu]
    exact (hq.seat u).congr (hsame u hu)

/-! ## Flags -/

theorem setFlag_flag (s : MtFrame) (t u : ThreadId) (f g : ThreadFlag) :
    (s.setFlag t f).flag u g = if u = t ∧ g = f then true else s.flag u g := by
  unfold MtFrame.setFlag
  by_cases hu : u = t
  · subst hu
    by_cases hg : g = f
    · simp [hg]
    · simp [hg]
  · simp [hu]

theorem unsetFlag_flag (s : MtFrame) (t u : ThreadId) (f g : ThreadFlag) :
    (s.unsetFlag t f).flag u g = if u = t ∧ g = f then false else s.flag u g := by
  unfold MtFrame.unsetFlag
  by_cases hu : u = t
  · subst hu
    by_cases hg : g = f
    · simp [hg]
    · simp [hg]
  · simp [hu]

theorem setFlag_of_ne (s : MtFrame) (t u : ThreadId) (h : g ≠ f) :
    (s.setFlag t f).flag u g = s.flag u g := by
  rw [setFlag_flag, if_neg (fun hand => h hand.2)]

theorem unsetFlag_of_ne (s : MtFrame) (t u : ThreadId) (h : g ≠ f) :
    (s.unsetFlag t f).flag u g = s.flag u g := by
  rw [unsetFlag_flag, if_neg (fun hand => h hand.2)]

/-! ## Moving a thread -/

theorem count_append_singleton (l : List ThreadId) (t u : ThreadId) :
    (l ++ [t]).count u = l.count u + if u = t then 1 else 0 := by
  rw [List.count_append, List.count_singleton]
  by_cases hu : u = t
  · simp [hu]
  · simp [hu, Ne.symm hu]

/-- A thread in no queue becomes runnable. -/
theorem Queues.insertRunable (hq : Queues base s place) (hout : place t = .out) :
    Queues base (s.insertRunable t) (Function.update place t .runnable) := by
  have hflag : ∀ u f, (s.insertRunable t).flag u f = if u = t ∧ f = .runList then true else s.flag u f :=
    fun u f => setFlag_flag s t u .runList f
  have hrun : ∀ u, (s.insertRunable t).runlist.count u = s.runlist.count u + if u = t then 1 else 0 :=
    fun u => count_append_singleton s.runlist t u
  have hold := hq.seat t
  rw [hout] at hold
  apply hq.move
  · exact hq.indexed
  · have hw := hq.waitnum
    simp only [MtFrame.insertRunable, MtFrame.record, MtFrame.setState, MtFrame.setFlag,
      List.length_append, List.length_singleton]
    push_cast
    omega
  · constructor
    · simp [hflag]
    · simp [hrun, hold.run_count]
    · simp [hflag, hold.sleep_flag, Place.isSleeping]
    · exact hold.sleep_index
    · simp [hflag, hold.io_flag]
    · exact hold.io_count
    · simp [hflag, hold.pend_flag]
    · exact hold.pend_count
  · intro u hu
    exact ⟨fun f _ _ => by simp [hflag, hu], by simp [hrun, hu], Iff.rfl, rfl, rfl⟩

/-- The first runnable thread leaves `_runlist`. -/
theorem Queues.removeRunable (hq : Queues base s place) (hrun : s.runlist = t :: rest) :
    Queues base (s.removeRunable t) (Function.update place t .out) := by
  have hflag : ∀ u f, (s.removeRunable t).flag u f = if u = t ∧ f = .runList then false else s.flag u f :=
    fun u f => unsetFlag_flag s t u .runList f
  have hlist : (s.removeRunable t).runlist = rest := by
    simp [MtFrame.removeRunable, MtFrame.unsetFlag, hrun]
  have hold := hq.seat t
  have hplace : place t = .runnable := by
    by_contra hne
    have hcount := hold.run_count
    rw [hrun, if_neg hne, List.count_cons_self] at hcount
    omega
  rw [hplace] at hold
  apply hq.move
  · exact hq.indexed
  · have hw := hq.waitnum
    rw [hrun, List.length_cons] at hw
    rw [hlist]
    simp only [MtFrame.removeRunable, MtFrame.unsetFlag]
    push_cast at hw
    omega
  · constructor
    · simp [hflag]
    · have hcount := hold.run_count
      rw [hrun, List.count_cons_self, if_pos rfl] at hcount
      rw [hlist, if_neg (by simp)]
      omega
    · simp [hflag, hold.sleep_flag, Place.isSleeping]
    · exact hold.sleep_index
    · simp [hflag, hold.io_flag]
    · exact hold.io_count
    · simp [hflag, hold.pend_flag]
    · exact hold.pend_count
  · intro u hu
    refine ⟨fun f _ _ => by simp [hflag, hu], ?_, Iff.rfl, rfl, rfl⟩
    rw [hlist, hrun, List.count_cons_of_ne (Ne.symm hu)]

/-- A thread in no queue goes to sleep. -/
theorem Queues.insertSleep (hq : Queues base s place) (hout : place t = .out)
    (hroom : s.sleeplist.count < s.sleeplist.max) :
    Queues base (s.insertSleep t) (Function.update place t (.sleeping false)) := by
  have hflag : ∀ u f, (s.insertSleep t).flag u f = if u = t ∧ f = .sleepList then true else s.flag u f :=
    fun u f => setFlag_flag s t u .sleepList f
  have hold := hq.seat t
  rw [hout] at hold
  have hidx : s.sleeplist.index t = 0 := by
    by_contra hne
    exact absurd (hold.sleep_index.mp hne) (by simp [Place.isSleeping])
  have hput : PutIn s.sleeplist (s.insertSleep t).sleeplist t :=
    (heapPush_putIn s.wakeup_time hq.indexed hroom hidx).2
  apply hq.move
  · exact hput.indexed
  · exact hq.waitnum
  · constructor
    · simp [hflag, hold.run_flag]
    · exact hold.run_count
    · simp [hflag, Place.isSleeping]
    · simp [hput.index_eq_zero, Place.isSleeping]
    · simp [hflag, hold.io_flag]
    · exact hold.io_count
    · simp [hflag, hold.pend_flag]
    · exact hold.pend_count
  · intro u hu
    refine ⟨fun f _ _ => by simp [hflag, hu], rfl, ?_, rfl, rfl⟩
    rw [hput.index_eq_zero]
    exact and_iff_right hu

/-- A sleeping thread that waits for nothing wakes up. -/
theorem Queues.removeSleep (hq : Queues base s place) (hplace : place t = .sleeping false) :
    Queues base (s.removeSleep t) (Function.update place t .out) := by
  have hflag : ∀ u f, (s.removeSleep t).flag u f = if u = t ∧ f = .sleepList then false else s.flag u f :=
    fun u f => unsetFlag_flag s t u .sleepList f
  have hold := hq.seat t
  rw [hplace] at hold
  have hidx : s.sleeplist.index t ≠ 0 := hold.sleep_index.mpr rfl
  have htaken : TakenOut s.sleeplist (s.removeSleep t).sleeplist t :=
    (heapDelete_takenOut s.wakeup_time hq.indexed hidx).2
  apply hq.move
  · exact htaken.indexed
  · exact hq.waitnum
  · constructor
    · simp [hflag, hold.run_flag]
    · exact hold.run_count
    · simp [hflag, Place.isSleeping]
    · simp [htaken.index_eq_zero, Place.isSleeping]
    · simp [hflag, hold.io_flag]
    · exact hold.io_count
    · simp [hflag, hold.pend_flag]
    · exact hold.pend_count
  · intro u hu
    refine ⟨fun f _ _ => by simp [hflag, hu], rfl, ?_, rfl, rfl⟩
    rw [htaken.index_eq_zero]
    exact or_iff_right hu

/-- A thread in no queue waits for input or output. -/
theorem Queues.insertIoWait (hq : Queues base s place) (hout : place t = .out)
    (hroom : s.sleeplist.count < s.sleeplist.max) :
    Queues base (s.insertIoWait t) (Function.update place t (.sleeping true)) := by
  have hflag : ∀ u f, (s.insertIoWait t).flag u f =
      if u = t ∧ f = .sleepList then true else if u = t ∧ f = .ioList then true else s.flag u f := by
    intro u f
    rw [← setFlag_flag s t u .ioList f]
    exact setFlag_flag (s.setFlag t .ioList) t u .sleepList f
  have hio : ∀ u, (s.insertIoWait t).iolist.count u = s.iolist.count u + if u = t then 1 else 0 :=
    fun u => count_append_singleton s.iolist t u
  have hold := hq.seat t
  rw [hout] at hold
  have hidx : s.sleeplist.index t = 0 := by
    by_contra hne
    exact absurd (hold.sleep_index.mp hne) (by simp [Place.isSleeping])
  have hput : PutIn s.sleeplist (s.insertIoWait t).sleeplist t :=
    (heapPush_putIn s.wakeup_time hq.indexed hroom hidx).2
  apply hq.move
  · exact hput.indexed
  · exact hq.waitnum
  · constructor
    · simp [hflag, hold.run_flag]
    · exact hold.run_count
    · simp [hflag, Place.isSleeping]
    · simp [hput.index_eq_zero, Place.isSleeping]
    · simp [hflag]
    · simp [hio, hold.io_count]
    · simp [hflag, hold.pend_flag]
    · exact hold.pend_count
  · intro u hu
    refine ⟨fun f _ _ => by simp [hflag, hu], rfl, ?_, by simp [hio, hu], rfl⟩
    rw [hput.index_eq_zero]
    exact and_iff_right hu

/-- A thread that waits for input or output wakes up. -/
theorem Queues.removeIoWait (hq : Queues base s place) (hplace : place t = .sleeping true) :
    Queues base (s.removeIoWait t) (Function.update place t .out) := by
  have hflag : ∀ u f, (s.removeIoWait t).flag u f =
      if u = t ∧ f = .sleepList then false else if u = t ∧ f = .ioList then false else s.flag u f := by
    intro u f
    rw [← unsetFlag_flag s t u .ioList f]
    exact unsetFlag_flag (s.unsetFlag t .ioList) t u .sleepList f
  have hold := hq.seat t
  rw [hplace] at hold
  have hidx : s.sleeplist.index t ≠ 0 := hold.sleep_index.mpr rfl
  have htaken : TakenOut s.sleeplist (s.removeIoWait t).sleeplist t :=
    (heapDelete_takenOut s.wakeup_time hq.indexed hidx).2
  have hio : (s.removeIoWait t).iolist = s.iolist.erase t := rfl
  apply hq.move
  · exact htaken.indexed
  · exact hq.waitnum
  · constructor
    · simp [hflag, hold.run_flag]
    · exact hold.run_count
    · simp [hflag, Place.isSleeping]
    · simp [htaken.index_eq_zero, Place.isSleeping]
    · simp [hflag]
    · simp [hio, hold.io_count]
    · simp [hflag, hold.pend_flag]
    · exact hold.pend_count
  · intro u hu
    refine ⟨fun f _ _ => by simp [hflag, hu], rfl, ?_, ?_, rfl⟩
    · rw [htaken.index_eq_zero]
      exact or_iff_right hu
    · rw [hio, List.count_erase_of_ne hu]

/-- A thread in no queue waits for its sub-threads. -/
theorem Queues.insertPend (hq : Queues base s place) (hout : place t = .out) :
    Queues base (s.insertPend t) (Function.update place t .pending) := by
  have hflag : ∀ u f, (s.insertPend t).flag u f = if u = t ∧ f = .pendList then true else s.flag u f :=
    fun u f => setFlag_flag s t u .pendList f
  have hpend : ∀ u, (s.insertPend t).pend_list.count u = s.pend_list.count u + if u = t then 1 else 0 :=
    fun u => count_append_singleton s.pend_list t u
  have hold := hq.seat t
  rw [hout] at hold
  apply hq.move
  · exact hq.indexed
  · exact hq.waitnum
  · constructor
    · simp [hflag, hold.run_flag]
    · exact hold.run_count
    · simp [hflag, hold.sleep_flag, Place.isSleeping]
    · exact hold.sleep_index
    · simp [hflag, hold.io_flag]
    · exact hold.io_count
    · simp [hflag]
    · simp [hpend, hold.pend_count]
  · intro u hu
    exact ⟨fun f _ _ => by simp [hflag, hu], rfl, Iff.rfl, rfl, by simp [hpend, hu]⟩

/-- A pending thread leaves `_pend_list`. -/
theorem Queues.removePend (hq : Queues base s place) (hplace : place t = .pending) :
    Queues base (s.removePend t) (Function.update place t .out) := by
  have hflag : ∀ u f, (s.removePend t).flag u f = if u = t ∧ f = .pendList then false else s.flag u f :=
    fun u f => unsetFlag_flag s t u .pendList f
  have hpend : (s.removePend t).pend_list = s.pend_list.erase t := rfl
  have hold := hq.seat t
  rw [hplace] at hold
  apply hq.move
  · exact hq.indexed
  · exact hq.waitnum
  · constructor
    · simp [hflag, hold.run_flag]
    · exact hold.run_count
    · simp [hflag, hold.sleep_flag, Place.isSleeping]
    · exact hold.sleep_index
    · simp [hflag, hold.io_flag]
    · exact hold.io_count
    · simp [hflag]
    · simp [hpend, hold.pend_count]
  · intro u hu
    refine ⟨fun f _ _ => by simp [hflag, hu], rfl, Iff.rfl, rfl, ?_⟩
    rw [hpend, List.count_erase_of_ne hu]

/-! ## What moving a thread leaves as it is -/

/-- What the pool, the families and the contexts of the threads are made of has not changed. -/
structure SameThreads (s s' : MtFrame) : Prop where
  type_eq : s'.type = s.type
  start_eq : s'.start = s.start
  parent_eq : s'.parent = s.parent
  sub_list_eq : s'.sub_list = s.sub_list
  context_eq : s'.context = s.context
  daemon_eq : s'.daemon = s.daemon
  curr_eq : s'.curr_thread = s.curr_thread
  freelist_eq : s'.freelist = s.freelist
  total_eq : s'.total_num = s.total_num
  max_eq : s'.max_num = s.max_num
  next_eq : s'.next = s.next
  result_eq : s'.result = s.result
  heap_max_eq : s'.sleeplist.max = s.sleeplist.max
  free_flag_eq : ∀ t, s'.flag t .freeList = s.flag t .freeList
  sub_flag_eq : ∀ t, s'.flag t .subList = s.flag t .subList

theorem SameThreads.trans {s'' : MtFrame} (h₁ : SameThreads s s') (h₂ : SameThreads s' s'') :
    SameThreads s s'' where
  type_eq := h₂.type_eq.trans h₁.type_eq
  start_eq := h₂.start_eq.trans h₁.start_eq
  parent_eq := h₂.parent_eq.trans h₁.parent_eq
  sub_list_eq := h₂.sub_list_eq.trans h₁.sub_list_eq
  context_eq := h₂.context_eq.trans h₁.context_eq
  daemon_eq := h₂.daemon_eq.trans h₁.daemon_eq
  curr_eq := h₂.curr_eq.trans h₁.curr_eq
  freelist_eq := h₂.freelist_eq.trans h₁.freelist_eq
  total_eq := h₂.total_eq.trans h₁.total_eq
  max_eq := h₂.max_eq.trans h₁.max_eq
  next_eq := h₂.next_eq.trans h₁.next_eq
  result_eq := h₂.result_eq.trans h₁.result_eq
  heap_max_eq := h₂.heap_max_eq.trans h₁.heap_max_eq
  free_flag_eq t := (h₂.free_flag_eq t).trans (h₁.free_flag_eq t)
  sub_flag_eq t := (h₂.sub_flag_eq t).trans (h₁.sub_flag_eq t)

/-- Moving a thread changes flags of queues, queues and the log only. -/
theorem SameThreads.of_flag (hfree : ∀ t, s'.flag t .freeList = s.flag t .freeList)
    (hsub : ∀ t, s'.flag t .subList = s.flag t .subList)
    (hmax : s'.sleeplist.max = s.sleeplist.max)
    (hrest : s' = { s with
      flag := s'.flag, state := s'.state, runlist := s'.runlist, iolist := s'.iolist,
      pend_list := s'.pend_list, sleeplist := s'.sleeplist, waitnum := s'.waitnum,
      wakeup_time := s'.wakeup_time, log := s'.log }) : SameThreads s s' := by
  refine ⟨?_, ?_, ?_, ?_, ?_, ?_, ?_, ?_, ?_, ?_, ?_, ?_, hmax, hfree, hsub⟩
  all_goals rw [hrest]

theorem sameThreads_setWakeupTime (s : MtFrame) (t : ThreadId) (time : ℕ) :
    SameThreads s (s.setWakeupTime t time) :=
  SameThreads.of_flag (fun _ => rfl) (fun _ => rfl) rfl rfl

theorem sameThreads_insertRunable (s : MtFrame) (t : ThreadId) : SameThreads s (s.insertRunable t) :=
  SameThreads.of_flag (fun u => setFlag_of_ne s t u (by decide)) (fun u => setFlag_of_ne s t u (by decide))
    rfl rfl

theorem sameThreads_removeRunable (s : MtFrame) (t : ThreadId) : SameThreads s (s.removeRunable t) :=
  SameThreads.of_flag (fun u => unsetFlag_of_ne s t u (by decide))
    (fun u => unsetFlag_of_ne s t u (by decide)) rfl rfl

theorem sameThreads_insertPend (s : MtFrame) (t : ThreadId) : SameThreads s (s.insertPend t) :=
  SameThreads.of_flag (fun u => setFlag_of_ne s t u (by decide)) (fun u => setFlag_of_ne s t u (by decide))
    rfl rfl

theorem sameThreads_removePend (s : MtFrame) (t : ThreadId) : SameThreads s (s.removePend t) :=
  SameThreads.of_flag (fun u => unsetFlag_of_ne s t u (by decide))
    (fun u => unsetFlag_of_ne s t u (by decide)) rfl rfl

theorem Indexed.heapPush_max (hi : Indexed h none) (value : ThreadId → ℕ) (t : ThreadId) :
    (h.heapPush value t).1.max = h.max := by
  rcases heapPush_cases value h t with ⟨hroom, hidx⟩ | ⟨hsame, -⟩
  · exact (heapPush_putIn value hi hroom hidx).2.max_eq
  · rw [hsame]

theorem Indexed.heapDelete_max (hi : Indexed h none) (value : ThreadId → ℕ) (t : ThreadId) :
    (h.heapDelete value t).1.max = h.max := by
  by_cases hidx : h.index t = 0
  · rw [(heapDelete_of_out value h hidx).1]
  · exact (heapDelete_takenOut value hi hidx).2.max_eq

theorem sameThreads_insertSleep (hi : Indexed s.sleeplist none) (t : ThreadId) :
    SameThreads s (s.insertSleep t) :=
  SameThreads.of_flag (fun u => setFlag_of_ne s t u (by decide)) (fun u => setFlag_of_ne s t u (by decide))
    (hi.heapPush_max s.wakeup_time t) rfl

theorem sameThreads_removeSleep (hi : Indexed s.sleeplist none) (t : ThreadId) :
    SameThreads s (s.removeSleep t) :=
  SameThreads.of_flag (fun u => unsetFlag_of_ne s t u (by decide))
    (fun u => unsetFlag_of_ne s t u (by decide)) (hi.heapDelete_max s.wakeup_time t) rfl

theorem sameThreads_insertIoWait (hi : Indexed s.sleeplist none) (t : ThreadId) :
    SameThreads s (s.insertIoWait t) := by
  have hfirst : SameThreads s { s.setFlag t .ioList with iolist := s.iolist ++ [t] } :=
    SameThreads.of_flag (fun u => setFlag_of_ne s t u (by decide))
      (fun u => setFlag_of_ne s t u (by decide)) rfl rfl
  refine hfirst.trans (sameThreads_insertSleep ?_ t)
  exact hi

theorem sameThreads_removeIoWait (hi : Indexed s.sleeplist none) (t : ThreadId) :
    SameThreads s (s.removeIoWait t) := by
  have hfirst : SameThreads s { s.unsetFlag t .ioList with iolist := s.iolist.erase t } :=
    SameThreads.of_flag (fun u => unsetFlag_of_ne s t u (by decide))
      (fun u => unsetFlag_of_ne s t u (by decide)) rfl rfl
  refine hfirst.trans (sameThreads_removeSleep ?_ t)
  exact hi

/-! ## The pool -/

/-- A thread that has been made and is not free. -/
def Live (s : MtFrame) (t : ThreadId) : Prop := t < s.next ∧ s.flag t .freeList = false

instance (s : MtFrame) (t : ThreadId) : Decidable (Live s t) :=
  inferInstanceAs (Decidable (_ ∧ _))

def liveSet (s : MtFrame) : Finset ThreadId :=
  (Finset.range s.next).filter fun t => s.flag t .freeList = false

theorem mem_liveSet : t ∈ liveSet s ↔ Live s t := by
  simp [liveSet, Live]

/-- The free list holds the free threads, and there are not more threads than the pool allows, all of
which have room in the heap. -/
structure Pool (s : MtFrame) : Prop where
  live_card : (liveSet s).card + s.freelist.length = s.total_num + 1
  total_le : s.total_num ≤ max DEFAULT_THREAD_NUM s.max_num
  nodup : s.freelist.Nodup
  free : ∀ t ∈ s.freelist, t < s.next ∧ s.flag t .freeList = true
  fresh : ∀ t, s.next ≤ t → s.flag t .freeList = false
  heap_max : max 100000 (s.max_num * 2) ≤ s.sleeplist.max

theorem SameThreads.live_iff (hsame : SameThreads s s') (t : ThreadId) : Live s' t ↔ Live s t := by
  rw [Live, Live, hsame.next_eq, hsame.free_flag_eq]

theorem SameThreads.liveSet_eq (hsame : SameThreads s s') : liveSet s' = liveSet s := by
  ext t
  rw [mem_liveSet, mem_liveSet, hsame.live_iff]

theorem Pool.congr (hpool : Pool s) (hsame : SameThreads s s') : Pool s' where
  live_card := by
    rw [hsame.liveSet_eq, hsame.freelist_eq, hsame.total_eq]
    exact hpool.live_card
  total_le := by
    rw [hsame.total_eq, hsame.max_eq]
    exact hpool.total_le
  nodup := by
    rw [hsame.freelist_eq]
    exact hpool.nodup
  free t ht := by
    rw [hsame.freelist_eq] at ht
    rw [hsame.next_eq, hsame.free_flag_eq]
    exact hpool.free t ht
  fresh t ht := by
    rw [hsame.next_eq] at ht
    rw [hsame.free_flag_eq]
    exact hpool.fresh t ht
  heap_max := by
    rw [hsame.max_eq, hsame.heap_max_eq]
    exact hpool.heap_max

/-- While some thread does not sleep, the heap has room. -/
theorem Pool.room (hpool : Pool s) (hi : Indexed s.sleeplist none)
    (hlive : ∀ u, s.sleeplist.index u ≠ 0 → Live s u) (ht : Live s t)
    (hout : s.sleeplist.index t = 0) : s.sleeplist.count < s.sleeplist.max := by
  -- The entries of the heap are different live threads, none of which is `t`.
  have hcard : s.sleeplist.count ≤ ((liveSet s).erase t).card := by
    have hinj := Finset.card_le_card_of_injOn (s := Finset.Icc 1 s.sleeplist.count)
      (t := ((liveSet s).erase t)) (fun i => (s.sleeplist.list i).getD 0) ?_ ?_
    · rwa [Nat.card_Icc, Nat.add_sub_cancel] at hinj
    · intro i hi'
      obtain ⟨h1, hin⟩ := Finset.mem_Icc.mp hi'
      obtain ⟨e, he, -, hei⟩ := hi.filled i h1 hin
      simp only [he, Option.getD_some]
      refine Finset.mem_coe.mpr (Finset.mem_erase.mpr ⟨?_, mem_liveSet.mpr (hlive e (by omega))⟩)
      rintro rfl
      omega
    · intro i hi' j hj' heq
      obtain ⟨h1, hin⟩ := Finset.mem_Icc.mp hi'
      obtain ⟨hj1, hjn⟩ := Finset.mem_Icc.mp hj'
      obtain ⟨e, he, -, hei⟩ := hi.filled i h1 hin
      obtain ⟨e', he', -, hei'⟩ := hi.filled j hj1 hjn
      simp only [he, he', Option.getD_some] at heq
      rw [← hei, ← hei', heq]
  rw [Finset.card_erase_of_mem (mem_liveSet.mpr ht)] at hcard
  have h1 := hpool.live_card
  have h2 := hpool.total_le
  have h3 := hpool.heap_max
  have h4 : 1 ≤ (liveSet s).card := Finset.card_pos.mpr ⟨t, mem_liveSet.mpr ht⟩
  simp only [DEFAULT_THREAD_NUM] at h2
  omega

/-- A thread that was free, or not made yet, is taken from the pool. -/
structure Allocated (s s' : MtFrame) (t : ThreadId) : Prop where
  pool : Pool s'
  not_live : ¬ Live s t
  live_iff : ∀ u, Live s' u ↔ u = t ∨ Live s u
  flag_eq : ∀ u f, f ≠ .freeList → s'.flag u f = s.flag u f
  use_num : s'.use_num = s.use_num + 1
  rest : s' = { s with
    flag := s'.flag, freelist := s'.freelist, total_num := s'.total_num, use_num := s'.use_num,
    default_thread_num := s'.default_thread_num, next := s'.next }

theorem Pool.allocThread_free (hpool : Pool s) (hfree : s.freelist = t :: rest) :
    Allocated s { s.unsetFlag t .freeList with freelist := rest, use_num := s.use_num + 1 } t := by
  obtain ⟨hlt, hflag⟩ := hpool.free t (by rw [hfree]; exact List.mem_cons_self)
  have hnodup := hpool.nodup
  rw [hfree, List.nodup_cons] at hnodup
  have hnot : ¬ Live s t := by
    intro hlive
    rw [hlive.2] at hflag
    cases hflag
  have hlive : ∀ u, Live { s.unsetFlag t .freeList with
      freelist := rest, use_num := s.use_num + 1 } u ↔ u = t ∨ Live s u := by
    intro u
    simp only [Live, unsetFlag_flag]
    by_cases hu : u = t
    · subst hu
      simpa [MtFrame.unsetFlag] using hlt
    · simp [hu, MtFrame.unsetFlag]
  have hset : liveSet { s.unsetFlag t .freeList with freelist := rest, use_num := s.use_num + 1 } =
      insert t (liveSet s) := by
    ext u
    rw [mem_liveSet, Finset.mem_insert, mem_liveSet]
    exact hlive u
  refine ⟨⟨?_, hpool.total_le, hnodup.2, ?_, ?_, hpool.heap_max⟩, hnot, hlive, ?_, rfl, rfl⟩
  · rw [hset, Finset.card_insert_of_notMem (fun hmem => hnot (mem_liveSet.mp hmem))]
    have hcard := hpool.live_card
    rw [hfree, List.length_cons] at hcard
    simp only [MtFrame.unsetFlag]
    omega
  · intro u hu
    obtain ⟨hlt', hflag'⟩ := hpool.free u (by rw [hfree]; exact List.mem_cons_of_mem t hu)
    refine ⟨hlt', ?_⟩
    dsimp only
    rw [unsetFlag_flag, if_neg, hflag']
    rintro ⟨rfl, -⟩
    exact hnodup.1 hu
  · intro u hu
    dsimp only
    rw [unsetFlag_flag]
    split
    · rfl
    · exact hpool.fresh u hu
  · intro u f hf
    exact unsetFlag_of_ne s t u hf

theorem Pool.allocThread_new (hpool : Pool s) (hmax : s.total_num < s.max_num) (n : ℕ) :
    Allocated s { s with
      next := s.next + 1
      total_num := s.total_num + 1
      use_num := s.use_num + 1
      default_thread_num := n } s.next := by
  have hnot : ¬ Live s s.next := fun hlive => absurd hlive.1 (lt_irrefl _)
  have hlive : ∀ u, Live { s with
      next := s.next + 1
      total_num := s.total_num + 1
      use_num := s.use_num + 1
      default_thread_num := n } u ↔ u = s.next ∨ Live s u := by
    intro u
    simp only [Live]
    by_cases hu : u = s.next
    · simp [hu, hpool.fresh s.next le_rfl]
    · simp only [hu, false_or, and_congr_left_iff]
      exact fun _ => ⟨fun hlt => lt_of_le_of_ne (Nat.lt_succ_iff.mp hlt) hu, Nat.lt_succ_of_lt⟩
  have hset : liveSet { s with
      next := s.next + 1
      total_num := s.total_num + 1
      use_num := s.use_num + 1
      default_thread_num := n } = insert s.next (liveSet s) := by
    ext u
    rw [mem_liveSet, Finset.mem_insert, mem_liveSet]
    exact hlive u
  refine ⟨⟨?_, ?_, hpool.nodup, ?_, ?_, hpool.heap_max⟩, hnot, hlive, fun _ _ _ => rfl, rfl, rfl⟩
  · rw [hset, Finset.card_insert_of_notMem (fun hmem => hnot (mem_liveSet.mp hmem))]
    have hcard := hpool.live_card
    dsimp only
    omega
  · have htotal := hpool.total_le
    dsimp only
    omega
  · intro u hu
    obtain ⟨hlt, hflag⟩ := hpool.free u hu
    exact ⟨Nat.lt_succ_of_lt hlt, hflag⟩
  · intro u hu
    exact hpool.fresh u (Nat.le_of_succ_le hu)

/-- `AllocThread` gives a thread of the pool, or leaves everything as it is. -/
theorem Pool.allocThread_cases (hpool : Pool s) (initial : Bool) :
    s.allocThread initial = (s, none) ∨
      ∃ s' t, s.allocThread initial = (s', some t) ∧ Allocated s s' t := by
  unfold MtFrame.allocThread
  split
  · rename_i t rest hfree
    exact Or.inr ⟨_, t, rfl, hpool.allocThread_free hfree⟩
  · split
    · exact Or.inl rfl
    · rename_i hmax
      split
      · exact Or.inl rfl
      · exact Or.inr ⟨_, s.next, rfl, hpool.allocThread_new (not_le.mp hmax) _⟩

/-- A thread goes back to the pool, with its fields as they were made. -/
structure Freed (s s' : MtFrame) (t : ThreadId) : Prop where
  pool : Pool s'
  live_iff : ∀ u, Live s' u ↔ u ≠ t ∧ Live s u
  flag_eq : ∀ u f, s'.flag u f = if u = t then decide (f = .freeList) else s.flag u f
  use_num : s'.use_num = s.use_num - 1
  rest : s' = { s.reset t with
    flag := s'.flag, freelist := s'.freelist, total_num := s'.total_num, use_num := s'.use_num,
    default_thread_num := s'.default_thread_num }

theorem Pool.freeThread (hpool : Pool s) (ht : Live s t) : Freed s (s.freeThread t) t := by
  have hflag : ∀ u f, (s.freeThread t).flag u f =
      if u = t then decide (f = .freeList) else s.flag u f := by
    intro u f
    have hset : (s.freeThread t).flag = ((s.reset t).setFlag t .freeList).flag := by
      unfold MtFrame.freeThread
      dsimp only
      split
      · rfl
      · rfl
    rw [hset, setFlag_flag]
    by_cases hu : u = t
    · subst hu
      by_cases hf : f = .freeList
      · simp [hf]
      · simp [hf, MtFrame.reset]
    · simp [hu, MtFrame.reset]
  have hnext : (s.freeThread t).next = s.next := by
    unfold MtFrame.freeThread
    dsimp only
    split
    · rfl
    · rfl
  have hlive : ∀ u, Live (s.freeThread t) u ↔ u ≠ t ∧ Live s u := by
    intro u
    rw [Live, Live, hflag, hnext]
    by_cases hu : u = t
    · simp [hu]
    · simp [hu]
  have hset : liveSet (s.freeThread t) = (liveSet s).erase t := by
    ext u
    rw [mem_liveSet, Finset.mem_erase, mem_liveSet]
    exact hlive u
  have hcard : (liveSet (s.freeThread t)).card + 1 = (liveSet s).card := by
    rw [hset, Finset.card_erase_of_mem (mem_liveSet.mpr ht)]
    have hpos : 0 < (liveSet s).card := Finset.card_pos.mpr ⟨t, mem_liveSet.mpr ht⟩
    omega
  have htfree : t ∉ s.freelist := by
    intro hmem
    have hf := (hpool.free t hmem).2
    rw [ht.2] at hf
    cases hf
  have hnodup : (s.freelist ++ [t]).Nodup := by
    rw [List.nodup_append]
    refine ⟨hpool.nodup, List.nodup_singleton t, ?_⟩
    rintro a ha b hb rfl
    rw [List.mem_singleton] at hb
    exact htfree (hb ▸ ha)
  -- The free list is the old one with the thread at its end, without its first thread if that was
  -- too long.
  have hlist : (s.freeThread t).freelist = s.freelist ++ [t] ∧
        (s.freeThread t).total_num = s.total_num ∨
      (s.freeThread t).freelist = (s.freelist ++ [t]).tail ∧
        (s.freeThread t).total_num = s.total_num - 1 ∧ 1 < (s.freelist ++ [t]).length := by
    unfold MtFrame.freeThread
    dsimp only
    split
    · rename_i hlong
      exact Or.inr ⟨rfl, rfl, hlong.2⟩
    · exact Or.inl ⟨rfl, rfl⟩
  have hsub : (s.freeThread t).freelist.Sublist (s.freelist ++ [t]) := by
    rcases hlist with ⟨hl, -⟩ | ⟨hl, -⟩
    · rw [hl]
    · rw [hl]
      exact List.tail_sublist _
  have hmaxnum : (s.freeThread t).max_num = s.max_num := by
    unfold MtFrame.freeThread
    dsimp only
    split
    · rfl
    · rfl
  refine ⟨⟨?_, ?_, hnodup.sublist hsub, ?_, ?_, ?_⟩, hlive, hflag, ?_, ?_⟩
  · have hold := hpool.live_card
    rcases hlist with ⟨hl, hn⟩ | ⟨hl, hn, hlong⟩
    · rw [hl, hn, List.length_append, List.length_singleton]
      omega
    · rw [hl, hn, List.length_tail]
      rw [List.length_append, List.length_singleton] at hlong ⊢
      omega
  · have hold := hpool.total_le
    rw [hmaxnum]
    rcases hlist with ⟨-, hn⟩ | ⟨-, hn, -⟩
    · rw [hn]
      exact hold
    · rw [hn]
      omega
  · intro u hu
    rw [hnext, hflag]
    rcases List.mem_append.mp (hsub.subset hu) with hold | hnew
    · obtain ⟨hlt, hf⟩ := hpool.free u hold
      refine ⟨hlt, ?_⟩
      split
      · rfl
      · exact hf
    · rw [List.mem_singleton] at hnew
      rw [if_pos hnew, hnew]
      exact ⟨ht.1, rfl⟩
  · intro u hu
    rw [hnext] at hu
    have hut : u ≠ t := by
      rintro rfl
      exact absurd ht.1 (not_lt.mpr hu)
    rw [hflag, if_neg hut]
    exact hpool.fresh u hu
  · have hheap : (s.freeThread t).sleeplist = s.sleeplist := by
      unfold MtFrame.freeThread
      dsimp only
      split
      · rfl
      · rfl
    rw [hheap, hmaxnum]
    exact hpool.heap_max
  · unfold MtFrame.freeThread
    dsimp only
    split
    · rfl
    · rfl
  · unfold MtFrame.freeThread
    dsimp only
    split
    · rfl
    · rfl

end FStack.Analysis
