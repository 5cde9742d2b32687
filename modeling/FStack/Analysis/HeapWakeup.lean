import FStack.Analysis.HeapOrder
import FStack.Model.MicroThread

/-!
# Deletions from the middle of the heap

`HeapDelete` puts the last entry into the place of the deleted one and lets it go down from there.  The
last entry can come from another subtree and have a smaller key than the parent of that place; then it
stays below a later entry, and `WakeupTimeout` and `check_expired`, which look at the top only, can
overlook it.

`heapRun_lastFits` says that this is all that goes wrong: a run keeps the heap in order exactly as long
as every deletion puts the last entry where it fits, and as long as the heap is in order, nothing that is
due is overlooked.
-/

set_option autoImplicit false

namespace FStack.Analysis

open FStack.Prelude FStack.Model

variable {ε : Type} [DecidableEq ε]

instance (h : HeapList ε) (value : ε → ℕ) (e : ε) : Decidable (LastFitsAt h value e) :=
  inferInstanceAs (Decidable (_ → _ → _))

instance (s : HeapRun ε) (op : HeapOp ε) : Decidable (LastFits s op) :=
  match op with
  | .push _ _ => inferInstanceAs (Decidable True)
  | .pop => inferInstanceAs (Decidable True)
  | .delete e => inferInstanceAs (Decidable (LastFitsAt s.heap s.value e))

/-- A run of heap calls whose deletions put the last entry where it fits leads to this heap. -/
def ReachedFitting (h : HeapList ε) (value : ε → ℕ) : Prop :=
  ∃ (max : ℕ) (init : ε → ℕ) (ops : List (HeapOp ε)),
    AllSteps HeapRun.step LastFits (HeapRun.new max init) ops ∧
      (ops.foldl HeapRun.step (HeapRun.new max init)).heap = h ∧
      (ops.foldl HeapRun.step (HeapRun.new max init)).value = value

omit [DecidableEq ε] in
theorem HeapOk.isHeap {s : HeapRun ε} (hok : HeapOk s) : IsHeap s.heap s.value := by
  obtain ⟨ht, hord⟩ := (heapOk_iff s).mp hok
  exact ⟨ht.indexed, hord⟩

theorem HeapOk.foldl {s : HeapRun ε} (hok : HeapOk s) {ops : List (HeapOp ε)}
    (hfits : AllSteps HeapRun.step LastFits s ops) : HeapOk (ops.foldl HeapRun.step s) := by
  induction ops generalizing s with
  | nil => exact hok
  | cons op ops ih => exact ih ((hok.step_iff op).mpr hfits.1) hfits.2

theorem ReachedFitting.isHeap {h : HeapList ε} {value : ε → ℕ} (hr : ReachedFitting h value) :
    IsHeap h value := by
  obtain ⟨max, init, ops, hfits, rfl, rfl⟩ := hr
  exact ((HeapOk.new max init).foldl hfits).isHeap

omit [DecidableEq ε] in
/-- A loop that looks at the top has overlooked nothing when it stops. -/
theorem IsHeap.lt_of_stop {h : HeapList ε} {value : ε → ℕ} {now : ℕ} (hh : IsHeap h value)
    (hstop : h.heapTop = none ∨ ∃ top, h.heapTop = some top ∧ ¬ value top ≤ now) {e : ε}
    (he : h.index e ≠ 0) : now < value e := by
  apply hh.lt_of_top _ he
  intro top htop
  rcases hstop with hnone | ⟨top', htop', hlater⟩
  · rw [hnone] at htop
    cases htop
  · rw [htop] at htop'
    cases htop'
    exact not_le.mp hlater

/-! ## Sleeping threads -/

section Threads

variable {s : MtFrame} {now : ℕ} {t : ThreadId}

/-- The thread that a turn of `WakeupTimeout` takes from the heap. -/
theorem wake_sleeplist (s : MtFrame) (t : ThreadId) :
    ((if s.hasFlag t .ioList then s.removeIoWait t else s.removeSleep t).insertRunable t).sleeplist =
        (s.sleeplist.heapDelete s.wakeup_time t).1 ∧
      ((if s.hasFlag t .ioList then s.removeIoWait t else s.removeSleep t).insertRunable t).wakeup_time =
        s.wakeup_time := by
  split
  · exact ⟨rfl, rfl⟩
  · exact ⟨rfl, rfl⟩

theorem wakeupLoop_later {turns : ℕ} (hturns : s.sleeplist.count ≤ turns)
    (hheap : IsHeap s.sleeplist s.wakeup_time)
    (ht : (MtFrame.wakeupLoop now turns s).sleeplist.index t ≠ 0) :
    now < (MtFrame.wakeupLoop now turns s).wakeup_time t := by
  induction turns generalizing s with
  | zero =>
    obtain ⟨hle, -⟩ := hheap.indexed.placed t (by simp) ht
    have hpos : s.sleeplist.index t ≠ 0 := ht
    omega
  | succ turns ih =>
    unfold MtFrame.wakeupLoop at ht ⊢
    cases htop : s.sleeplist.heapTop with
    | none =>
      rw [htop] at ht
      exact hheap.lt_of_stop (Or.inl htop) ht
    | some top =>
      rw [htop] at ht
      dsimp only at ht ⊢
      by_cases hdue : s.wakeup_time top ≤ now
      · rw [if_pos hdue] at ht ⊢
        obtain ⟨hsleep, hwake⟩ := wake_sleeplist s top
        obtain ⟨-, -, hidx⟩ := hheap.indexed.heapTop_eq htop
        have hmem : s.sleeplist.index top ≠ 0 := by omega
        have hout := (heapDelete_takenOut s.wakeup_time hheap.indexed hmem).2
        apply ih
        · rw [hsleep, hout.count_eq]
          omega
        · rw [hsleep, hwake]
          exact hheap.delete (hheap.indexed.lastFitsAt_top htop)
        · exact ht
      · rw [if_neg hdue] at ht ⊢
        exact hheap.lt_of_stop (Or.inr ⟨top, htop, hdue⟩) ht

end Threads

/-! ## Timers -/

section Timers

variable {m m' : CTimerMng ε} {now : ℕ}

/-- A call for timers that does not change the key of an entry of the heap, and takes out an entry only
where the last one fits. -/
def TimerFits (m : CTimerMng ε) : TimerCall ε → Prop
  | .start timer _ _ => m.heap.index timer = 0
  | .stop timer => LastFitsAt m.heap m.expired timer

/-- The calls that the expired timers make are of this kind. -/
def NotifiedFits (now : ℕ) : List (List (TimerCall ε)) → CTimerMng ε → Prop
  | [], _ => True
  | calls :: notified, m =>
    ∀ timer, m.heap.heapTop = some timer → m.expired timer ≤ now →
      AllSteps CTimerMng.call TimerFits (m.stopTimer timer) calls ∧
        NotifiedFits now notified (calls.foldl CTimerMng.call (m.stopTimer timer))

theorem IsHeap.call {c : TimerCall ε} (hheap : IsHeap m.heap m.expired) (hfits : TimerFits m c) :
    IsHeap (m.call c).heap (m.call c).expired := by
  cases c with
  | start timer interval now => exact hheap.push hfits _
  | stop timer => exact hheap.delete hfits

theorem IsHeap.calls {calls : List (TimerCall ε)} (hheap : IsHeap m.heap m.expired)
    (hfits : AllSteps CTimerMng.call TimerFits m calls) :
    IsHeap (calls.foldl CTimerMng.call m).heap (calls.foldl CTimerMng.call m).expired := by
  induction calls generalizing m with
  | nil => exact hheap
  | cons c calls ih => exact ih (hheap.call hfits.1) hfits.2

theorem checkExpired_later {notified : List (List (TimerCall ε))} (hheap : IsHeap m.heap m.expired)
    (hfits : NotifiedFits now notified m) (hret : m.checkExpired now notified = some m') {timer : ε}
    (htimer : m'.heap.index timer ≠ 0) : now < m'.expired timer := by
  induction notified generalizing m with
  | nil =>
    unfold CTimerMng.checkExpired at hret
    split at hret
    · rename_i htop
      cases hret
      exact hheap.lt_of_stop (Or.inl htop) htimer
    · rename_i top htop
      split at hret
      · cases hret
      · rename_i hdue
        cases hret
        exact hheap.lt_of_stop (Or.inr ⟨top, htop, hdue⟩) htimer
  | cons calls notified ih =>
    unfold CTimerMng.checkExpired at hret
    split at hret
    · rename_i htop
      cases hret
      exact hheap.lt_of_stop (Or.inl htop) htimer
    · rename_i top htop
      split at hret
      · rename_i hdue
        obtain ⟨hcalls, hrest⟩ := hfits top htop hdue
        have hstop : IsHeap (m.stopTimer top).heap (m.stopTimer top).expired :=
          hheap.delete (hheap.indexed.lastFitsAt_top htop)
        exact ih (hstop.calls hcalls) hrest hret
      · rename_i hdue
        cases hret
        exact hheap.lt_of_stop (Or.inr ⟨top, htop, hdue⟩) htimer

end Timers

/-- INTERNAL: A run leaves a heap after every call exactly when every deletion puts the last entry where
its key is not smaller than that of the parent; from such runs, `WakeupTimeout` and `check_expired` leave
nothing in the heap that is due. -/
theorem heapRun_lastFits {ε : Type} [DecidableEq ε] (max : ℕ) (value : ε → ℕ) (ops : List (HeapOp ε)) :
    (AllSteps HeapRun.step (fun s op => HeapOk (s.step op)) (HeapRun.new max value) ops ↔
      AllSteps HeapRun.step LastFits (HeapRun.new max value) ops) ∧
    (∀ (s : MtFrame) (now : ℕ), ReachedFitting s.sleeplist s.wakeup_time →
      ∀ t, (s.wakeupTimeout now).sleeplist.index t ≠ 0 →
        now < (s.wakeupTimeout now).wakeup_time t) ∧
    (∀ (m m' : CTimerMng ε) (now : ℕ) (notified : List (List (TimerCall ε))),
      ReachedFitting m.heap m.expired → NotifiedFits now notified m →
        m.checkExpired now notified = some m' →
          ∀ timer, m'.heap.index timer ≠ 0 → now < m'.expired timer) := by
  refine ⟨?_, ?_, ?_⟩
  · exact (HeapOk.new max value).run_iff ops
  · intro s now hr t ht
    exact wakeupLoop_later le_rfl hr.isHeap ht
  · intro m m' now notified hr hfits hret timer htimer
    exact checkExpired_later hr.isHeap hfits hret htimer

/-- The keys 5 and 9 are pushed for the entries 0 and 1. -/
def twoPushes : HeapRun ℕ := [.push 0 5, .push 1 9].foldl HeapRun.step (HeapRun.new 100 fun _ => 0)

/-- At time 6 the first of two threads wakes up, and the first of two timers has expired, whose notification
starts a third one: what is left is later. -/
theorem heapRun_lastFits_twoPushes :
    6 < (({ MtFrame.initFrame 1 1 0 with
        sleeplist := twoPushes.heap, wakeup_time := twoPushes.value } : MtFrame).wakeupTimeout 6).wakeup_time 1 ∧
      ∀ m', CTimerMng.checkExpired 6 [[.start 2 7 6]] ⟨twoPushes.heap, twoPushes.value⟩ = some m' →
        ∀ timer, m'.heap.index timer ≠ 0 → 6 < m'.expired timer := by
  have hr : ReachedFitting twoPushes.heap twoPushes.value :=
    ⟨100, fun _ => 0, [.push 0 5, .push 1 9], by decide, rfl, rfl⟩
  obtain ⟨-, hwake, hexpire⟩ := heapRun_lastFits (ε := ℕ) 100 (fun _ => 0) []
  refine ⟨hwake _ 6 hr 1 (by decide), fun m' hret => hexpire ⟨_, _⟩ m' 6 _ hr ?_ hret⟩
  intro timer htop _
  obtain rfl : 0 = timer := Option.some.inj htop
  exact ⟨⟨show (CTimerMng.stopTimer _ 0).heap.index 2 = 0 by decide, trivial⟩, trivial⟩

/-- Six entries are pushed, and the fourth is deleted: the last one, with the key 3, takes its place below
the key 10. -/
def middleDeletion : List (HeapOp ℕ) :=
  [.push 0 1, .push 1 10, .push 2 2, .push 3 11, .push 4 12, .push 5 3, .delete 3]

theorem middleDeletion_unordered :
    ¬ AllSteps HeapRun.step (fun s op => HeapOk (s.step op)) (HeapRun.new 100 fun _ => 0)
      middleDeletion := by
  rw [(HeapOk.new 100 fun _ => 0).run_iff]
  decide

end FStack.Analysis
