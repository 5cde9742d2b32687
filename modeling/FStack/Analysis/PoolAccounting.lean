import FStack.Model.ThreadPool
import FStack.Prelude.Monitored
import Mathlib.Data.List.Nodup

/-!
# The accounts of the thread pool

The threads of the pool are those in its queue and those that its callers have, each of them once
(`PoolCounted`).  A thread that comes back goes to the end of the queue, and one is destroyed at the front only
when there are two at least, so it is another one (`freeThread_cases`).
-/

set_option autoImplicit false

namespace FStack.Analysis

open FStack.Model FStack.Prelude

variable {made : ℕ} {thread : ThreadId}

/-- The counters agree with the queue and with the threads that the callers have, and `made` threads are more than
the quota only if the pool began so. -/
structure PoolCounted (made : ℕ) (s : PoolState) : Prop where
  total_eq : s.pool.total_num = s.pool.freelist.length + s.pool.use_num
  use_eq : s.pool.use_num = s.used.length
  total_le : s.pool.total_num ≤ max s.pool.max_num made
  nodup : s.pool.freelist.Nodup

/-- A call keeps the accounts, a thread is refused for want of one only, and the thread that is given back is kept
in the queue. -/
def ThreadPoolRight (made : ℕ) (s : PoolState) (a : PoolCall) : Prop :=
  PoolCounted made (s.step a) ∧
    match a with
    | .allocThread initial =>
      (s.pool.allocThread initial).2 = none →
        s.pool.freelist = [] ∧ (s.pool.max_num ≤ s.pool.total_num ∨ initial = false)
    | .freeThread thread =>
      thread ∈ s.used →
        (s.pool.freeThread thread).2 ≠ some thread ∧ thread ∈ (s.pool.freeThread thread).1.freelist
    | .setDefaultThreadNum _ => True

/-- The accounts, with no thread both free and in use, and none that has not been made. -/
structure ThreadPoolInv (made : ℕ) (s : PoolState) : Prop extends PoolCounted made s where
  apart : (s.pool.freelist ++ s.used).Nodup
  fresh : ∀ t ∈ s.pool.freelist ++ s.used, t < s.pool.next

/-! ## Operations of the pool -/

section

variable (s : ThreadPool)

@[simp] theorem growDefault_freelist : s.growDefault.freelist = s.freelist := by
  unfold ThreadPool.growDefault
  split <;> rfl

@[simp] theorem growDefault_total : s.growDefault.total_num = s.total_num := by
  unfold ThreadPool.growDefault
  split <;> rfl

@[simp] theorem growDefault_use : s.growDefault.use_num = s.use_num := by
  unfold ThreadPool.growDefault
  split <;> rfl

@[simp] theorem growDefault_max : s.growDefault.max_num = s.max_num := by
  unfold ThreadPool.growDefault
  split <;> rfl

@[simp] theorem growDefault_next : s.growDefault.next = s.next := by
  unfold ThreadPool.growDefault
  split <;> rfl

@[simp] theorem shrinkDefault_freelist : s.shrinkDefault.freelist = s.freelist := by
  unfold ThreadPool.shrinkDefault
  split <;> rfl

@[simp] theorem shrinkDefault_total : s.shrinkDefault.total_num = s.total_num := by
  unfold ThreadPool.shrinkDefault
  split <;> rfl

@[simp] theorem shrinkDefault_use : s.shrinkDefault.use_num = s.use_num := by
  unfold ThreadPool.shrinkDefault
  split <;> rfl

@[simp] theorem shrinkDefault_max : s.shrinkDefault.max_num = s.max_num := by
  unfold ThreadPool.shrinkDefault
  split <;> rfl

@[simp] theorem shrinkDefault_next : s.shrinkDefault.next = s.next := by
  unfold ThreadPool.shrinkDefault
  split <;> rfl

end

/-- `AllocThread` takes the first free thread, makes one, or leaves the pool as it is. -/
theorem poolAlloc_cases (s : ThreadPool) (initial : Bool) :
    (∃ thread rest, s.freelist = thread :: rest ∧
      s.allocThread initial = ({ s with freelist := rest, use_num := s.use_num + 1 }, some thread)) ∨
    (s.freelist = [] ∧ (s.max_num ≤ s.total_num ∨ initial = false) ∧ s.allocThread initial = (s, none)) ∨
    (s.freelist = [] ∧ s.total_num < s.max_num ∧
      s.allocThread initial = (ThreadPool.growDefault
        { s with total_num := s.total_num + 1, use_num := s.use_num + 1, next := s.next + 1 }, some s.next)) := by
  unfold ThreadPool.allocThread
  cases hfree : s.freelist with
  | cons thread rest => exact .inl ⟨thread, rest, rfl, rfl⟩
  | nil =>
    by_cases hmax : s.max_num ≤ s.total_num
    · exact .inr (.inl ⟨rfl, .inl hmax, if_pos hmax⟩)
    · cases initial with
      | false => exact .inr (.inl ⟨rfl, .inr rfl, by simp [hmax]⟩)
      | true => exact .inr (.inr ⟨rfl, not_le.mp hmax, by simp [hmax]⟩)

/-- `FreeThread` puts the thread at the end of the queue, and takes away the first one only if that is
another one. -/
theorem poolFree_cases (s : ThreadPool) (thread : ThreadId) :
    (s.freeThread thread =
      ({ s with use_num := s.use_num - 1, freelist := s.freelist ++ [thread] }, none)) ∨
    ∃ front rest, s.freelist = front :: rest ∧
      s.freeThread thread =
        (ThreadPool.shrinkDefault
          { s with use_num := s.use_num - 1, freelist := rest ++ [thread], total_num := s.total_num - 1 },
          some front) := by
  unfold ThreadPool.freeThread
  dsimp only
  split
  · rename_i hlong
    cases hfree : s.freelist with
    | nil =>
      rw [hfree, List.nil_append, List.length_singleton] at hlong
      exact absurd hlong.2 (by decide)
    | cons front rest => exact .inr ⟨front, rest, rfl, rfl⟩
  · exact .inl rfl

/-! ## One call -/

/-- `AllocThread` keeps the invariant. -/
theorem ThreadPoolInv.allocThread {s : PoolState} (h : ThreadPoolInv made s) (initial : Bool) :
    ThreadPoolInv made (s.step (.allocThread initial)) := by
  rw [PoolState.step]
  have htotal := h.total_eq
  have huse := h.use_eq
  have hle := h.total_le
  have hapart := h.apart
  rcases poolAlloc_cases s.pool initial with
    ⟨thread, rest, hfree, heq⟩ | ⟨-, -, heq⟩ | ⟨hfree, hmax, heq⟩
  · have hperm : (rest ++ thread :: s.used).Perm (s.pool.freelist ++ s.used) := by
      rw [hfree]
      exact List.perm_middle
    rw [heq]
    refine ⟨⟨?_, ?_, hle, ?_⟩, hperm.nodup_iff.mpr hapart, fun t ht => h.fresh t (hperm.subset ht)⟩
    · rw [hfree, List.length_cons] at htotal
      dsimp only
      omega
    · dsimp only
      rw [huse, List.length_cons]
      omega
    · have hnodup := h.nodup
      rw [hfree] at hnodup
      exact hnodup.of_cons
  · rw [heq]
    exact h
  · rw [heq]
    refine ⟨⟨?_, ?_, ?_, ?_⟩, ?_, ?_⟩
    · simp only [growDefault_total, growDefault_freelist, growDefault_use]
      omega
    · simp only [growDefault_use, List.length_cons]
      omega
    · simp only [growDefault_total, growDefault_max]
      exact le_max_of_le_left (Int.add_one_le_of_lt hmax)
    · simp only [growDefault_freelist]
      exact h.nodup
    · simp only [growDefault_freelist]
      rw [hfree, List.nil_append] at hapart ⊢
      refine List.nodup_cons.mpr ⟨fun hmem => ?_, hapart⟩
      exact lt_irrefl _ (h.fresh s.pool.next (List.mem_append_right _ hmem))
    · intro t ht
      simp only [growDefault_freelist, growDefault_next] at ht ⊢
      rcases List.mem_append.mp ht with hold | hnew
      · exact Nat.lt_succ_of_lt (h.fresh t (List.mem_append_left _ hold))
      · rcases List.mem_cons.mp hnew with heq | hold
        · rw [heq]
          exact Nat.lt_succ_self _
        · exact Nat.lt_succ_of_lt (h.fresh t (List.mem_append_right _ hold))

/-- `FreeThread` keeps the invariant. -/
theorem ThreadPoolInv.freeThread {s : PoolState} (h : ThreadPoolInv made s) (hused : thread ∈ s.used) :
    ThreadPoolInv made ⟨(s.pool.freeThread thread).1, s.used.erase thread⟩ := by
  have htotal := h.total_eq
  have huse := h.use_eq
  have hle := h.total_le
  have hlength : (s.used.erase thread).length + 1 = s.used.length := by
    rw [List.length_erase_of_mem hused]
    exact Nat.succ_pred_eq_of_pos (List.length_pos_of_mem hused)
  have hperm : ∀ l : List ThreadId, (l ++ [thread] ++ s.used.erase thread).Perm (l ++ s.used) := by
    intro l
    rw [List.append_assoc]
    exact (List.perm_cons_erase hused).symm.append_left l
  rcases poolFree_cases s.pool thread with heq | ⟨front, rest, hfree, heq⟩
  · rw [heq]
    have hapart := (hperm s.pool.freelist).nodup_iff.mpr h.apart
    refine ⟨⟨?_, ?_, hle, hapart.of_append_left⟩, hapart, ?_⟩
    · dsimp only
      rw [List.length_append, List.length_singleton]
      omega
    · dsimp only
      omega
    · intro t ht
      exact h.fresh t ((hperm s.pool.freelist).subset ht)
  · rw [heq]
    have hsub : (rest ++ s.used).Sublist (s.pool.freelist ++ s.used) := by
      rw [hfree]
      exact List.sublist_cons_self front (rest ++ s.used)
    have hapart := (hperm rest).nodup_iff.mpr (h.apart.sublist hsub)
    rw [hfree, List.length_cons] at htotal
    refine ⟨⟨?_, ?_, ?_, ?_⟩, ?_, ?_⟩
    · simp only [shrinkDefault_total, shrinkDefault_freelist, shrinkDefault_use, List.length_append,
        List.length_singleton]
      omega
    · simp only [shrinkDefault_use]
      omega
    · simp only [shrinkDefault_total, shrinkDefault_max]
      omega
    · simp only [shrinkDefault_freelist]
      exact hapart.of_append_left
    · simp only [shrinkDefault_freelist]
      exact hapart
    · intro t ht
      simp only [shrinkDefault_freelist, shrinkDefault_next] at ht ⊢
      exact h.fresh t (hsub.subset ((hperm rest).subset ht))

/-- The thread that is given back stays in the queue. -/
theorem ThreadPoolInv.kept {s : PoolState} (h : ThreadPoolInv made s) (hused : thread ∈ s.used) :
    (s.pool.freeThread thread).2 ≠ some thread ∧ thread ∈ (s.pool.freeThread thread).1.freelist := by
  rcases poolFree_cases s.pool thread with heq | ⟨front, rest, hfree, heq⟩
  · rw [heq]
    exact ⟨nofun, List.mem_append_right _ List.mem_cons_self⟩
  · rw [heq]
    simp only [shrinkDefault_freelist]
    refine ⟨fun hfront => ?_, List.mem_append_right _ List.mem_cons_self⟩
    have hmem : thread ∈ s.pool.freelist := by
      rw [hfree, Option.some.inj hfront]
      exact List.mem_cons_self
    exact (List.nodup_append.mp h.apart).2.2 thread hmem thread hused rfl

/-- Every call keeps the invariant. -/
theorem ThreadPoolInv.step {s : PoolState} (h : ThreadPoolInv made s) (a : PoolCall) :
    ThreadPoolInv made (s.step a) := by
  cases a with
  | allocThread initial => exact h.allocThread initial
  | freeThread thread =>
    rw [PoolState.step]
    split
    · rename_i hused
      exact h.freeThread hused
    · exact h
  | setDefaultThreadNum num => exact ⟨⟨h.total_eq, h.use_eq, h.total_le, h.nodup⟩, h.apart, h.fresh⟩

/-- Every call is right. -/
theorem ThreadPoolInv.right {s : PoolState} (h : ThreadPoolInv made s) (a : PoolCall) :
    ThreadPoolRight made s a := by
  refine ⟨(h.step a).toPoolCounted, ?_⟩
  cases a with
  | allocThread initial =>
    intro hnone
    rcases poolAlloc_cases s.pool initial with ⟨thread, rest, -, heq⟩ | ⟨hfree, hwhy, -⟩ | ⟨-, -, heq⟩
    · rw [heq] at hnone
      cases hnone
    · exact ⟨hfree, hwhy⟩
    · rw [heq] at hnone
      cases hnone
  | freeThread thread => exact fun hused => h.kept hused
  | setDefaultThreadNum num => trivial

/-! ## Runs -/

/-- The loop of `InitialPool` appends a new thread for each one that gets its stack. -/
theorem initialThreads_freelist (rounds : List Bool) (s : ThreadPool) :
    ((ThreadPool.initialThreads rounds s).freelist = s.freelist ++ List.range' s.next (rounds.count true)) ∧
      (ThreadPool.initialThreads rounds s).next = s.next + rounds.count true := by
  induction rounds generalizing s with
  | nil => exact ⟨(List.append_nil _).symm, rfl⟩
  | cons made rounds ih =>
    cases made with
    | true =>
      obtain ⟨hfree, hnext⟩ := ih { s with freelist := s.freelist ++ [s.next], next := s.next + 1 }
      rw [ThreadPool.initialThreads, List.count_cons_self]
      refine ⟨?_, ?_⟩
      · rw [hfree, List.append_assoc, List.range'_succ]
        rfl
      · rw [hnext]
        exact Nat.add_right_comm _ _ _
    | false =>
      rw [ThreadPool.initialThreads, List.count_cons_of_ne (by decide)]
      exact ih s

/-- `InitialPool` refuses a pool whose size is not an `int`. -/
theorem initialPool_inv {default_thread_num : ℕ} {max_num : ℤ} {rounds : List Bool}
    (hrounds : rounds.length = default_thread_num) (hdefault : default_thread_num < 2 ^ 32)
    (hok : (ThreadPool.initialPool default_thread_num max_num rounds).2 = true) :
    ThreadPoolInv (rounds.count true) ⟨(ThreadPool.initialPool default_thread_num max_num rounds).1, []⟩ := by
  obtain ⟨hfree, hnext⟩ := initialThreads_freelist rounds ⟨[], 0, 0, 0, default_thread_num, 0⟩
  dsimp only at hfree hnext
  rw [List.nil_append] at hfree
  rw [Nat.zero_add] at hnext
  have hcount : rounds.count true < 2 ^ 32 := lt_of_le_of_lt List.count_le_length (hrounds ▸ hdefault)
  have hlength : (ThreadPool.initialThreads rounds ⟨[], 0, 0, 0, default_thread_num, 0⟩).freelist.length =
      rounds.count true := by
    rw [hfree, List.length_range']
  have hpos : 0 < int32 (rounds.count true) := by
    simp only [ThreadPool.initialPool, hlength] at hok
    by_contra hnot
    rw [if_pos (not_lt.mp hnot)] at hok
    cases hok
  have hint : int32 (rounds.count true) = rounds.count true := by
    unfold int32 at hpos ⊢
    rw [Int.bmod_def] at hpos ⊢
    split at hpos
    · rename_i hsmall
      rw [if_pos hsmall]
      omega
    · omega
  simp only [ThreadPool.initialPool, hlength, hint]
  refine ⟨⟨?_, rfl, le_max_right _ _, ?_⟩, ?_, ?_⟩
  · dsimp only
    rw [hlength, Int.add_zero]
  · dsimp only
    rw [hfree]
    exact List.nodup_range'
  · dsimp only
    rw [hfree, List.append_nil]
    exact List.nodup_range'
  · intro t ht
    dsimp only at ht ⊢
    rw [hfree, List.append_nil, List.mem_range'_1] at ht
    rw [hnext]
    exact lt_of_lt_of_eq ht.2 (Nat.zero_add _)

/-- **The accounts of the pool are right** from `InitialPool` on, whichever threads get their stacks, and whatever
its callers do and the default number is. -/
theorem pool_right {default_thread_num : ℕ} {max_num : ℤ} {rounds : List Bool}
    (hrounds : rounds.length = default_thread_num) (hdefault : default_thread_num < 2 ^ 32)
    (hok : (ThreadPool.initialPool default_thread_num max_num rounds).2 = true) (calls : List PoolCall) :
    PoolCounted (rounds.count true) ⟨(ThreadPool.initialPool default_thread_num max_num rounds).1, []⟩ ∧
      AllSteps PoolState.step (ThreadPoolRight (rounds.count true))
        ⟨(ThreadPool.initialPool default_thread_num max_num rounds).1, []⟩ calls := by
  have hinv := initialPool_inv hrounds hdefault hok
  refine ⟨hinv.toPoolCounted, ?_⟩
  exact AllSteps.of_invariant (I := ThreadPoolInv (rounds.count true)) (fun _ a h => h.step a)
    (fun _ a h => h.right a) hinv calls

/-- A pool of one thread that grows to two, gets both back, and destroys the one that came first. -/
theorem pool_right_two :
    PoolCounted 1 ⟨(ThreadPool.initialPool 1 2 [true]).1, []⟩ ∧
      AllSteps PoolState.step (ThreadPoolRight 1) ⟨(ThreadPool.initialPool 1 2 [true]).1, []⟩
        [.allocThread true, .allocThread true, .freeThread 0, .freeThread 1] :=
  @pool_right 1 2 [true] rfl (by decide) (by decide) _

/-! ## The pool of the scheduler -/

/-- The pool of a frame. -/
def framePool (s : MtFrame) : ThreadPool :=
  ⟨s.freelist, s.total_num, s.use_num, s.max_num, s.default_thread_num, s.next⟩

/-- The frame allocates as its pool does. -/
theorem framePool_allocThread {s : MtFrame} (hdefault : s.default_thread_num < 2 ^ 30) (initial : Bool) :
    (framePool s).allocThread initial = (framePool (s.allocThread initial).1, (s.allocThread initial).2) := by
  have hint : int32 s.default_thread_num = s.default_thread_num := by
    unfold int32
    rw [Int.bmod_eq_of_le] <;> omega
  have hdouble : int32 (s.default_thread_num * 2 : ℤ) = s.default_thread_num * 2 := by
    unfold int32
    rw [Int.bmod_eq_of_le] <;> omega
  unfold ThreadPool.allocThread MtFrame.allocThread framePool
  dsimp only
  cases hfree : s.freelist with
  | cons thread rest => rfl
  | nil =>
    dsimp only
    by_cases hmax : s.max_num ≤ s.total_num
    · rw [if_pos hmax, if_pos (Int.ofNat_le.mpr hmax)]
      dsimp only
      rw [hfree]
    · rw [if_neg hmax, if_neg (fun hle => hmax (Int.ofNat_le.mp hle))]
      cases initial with
      | false =>
        rw [if_pos rfl, if_pos rfl]
        dsimp only
        rw [hfree]
      | true =>
        simp only [Bool.true_eq_false, if_false, ThreadPool.growDefault, hint, hdouble]
        by_cases hgrow : (s.default_thread_num : ℤ) < s.use_num + 1 ∧ s.default_thread_num * 2 < s.max_num
        · rw [if_pos hgrow, if_pos ⟨hgrow.1, by omega⟩, Nat.mod_eq_of_lt (by omega), Nat.cast_add_one]
        · rw [if_neg hgrow, if_neg (fun hboth => hgrow ⟨hboth.1, by omega⟩), Nat.cast_add_one]

/-- The frame frees as its pool does. -/
theorem framePool_freeThread {s : MtFrame} (htotal : 0 < s.total_num) (hlength : s.freelist.length + 1 < 2 ^ 32)
    (t : ThreadId) : ((framePool s).freeThread t).1 = framePool (s.freeThread t) := by
  unfold ThreadPool.freeThread MtFrame.freeThread framePool MtFrame.setFlag MtFrame.reset
  dsimp only
  rw [Nat.mod_eq_of_lt (by rw [List.length_append, List.length_singleton]; exact hlength)]
  split
  · cases hfree : s.freelist ++ [t] with
    | nil => exact absurd (congrArg List.length hfree) (by simp)
    | cons front rest =>
      dsimp only
      have hpred : (s.total_num : ℤ) - 1 = (s.total_num - 1 : ℕ) := by omega
      rw [ThreadPool.shrinkDefault, hpred]
      dsimp only
      split
      · rfl
      · rfl
  · rfl

end FStack.Analysis
