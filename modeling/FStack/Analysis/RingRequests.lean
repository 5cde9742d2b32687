import FStack.Model.RingIpc
import FStack.Prelude.Monitored

/-!
# Requests of the ring are handled once

As long as the thread begins a request only when the loop is done with the one before, and nobody sets
`completion` for a request that is not handled yet, the context stands in the ring at most once, and the
requests are handled in the order and with the arguments they were submitted with.  A request that timed out
and is still in the ring when the next one is written breaks this, and so does a wakeup.
-/

set_option autoImplicit false

namespace FStack.Analysis

open FStack.Model FStack.Prelude

variable {s : RingSys}

/-- The thread has cleared `completion` for its request. -/
def SubmitPc.cleared : SubmitPc → Bool
  | .enqueue => true
  | .load => true
  | .clock => true
  | _ => false

/-- A request is begun when the loop is done with the one before; a wakeup does not come for a request that
is not completed. -/
def RingSafe (s : RingSys) : RingStep → Prop
  | .begin _ => s.app = .idle → s.req_ring = 0 ∧ s.loop = .next 0
  | .alarm => SubmitPc.cleared s.app = true → s.sc.completion = true
  | _ => True

instance (s : RingSys) : ∀ a, Decidable (RingSafe s a)
  | .begin _ => inferInstanceAs (Decidable (_ → _))
  | .app _ => inferInstanceAs (Decidable True)
  | .loop _ _ => inferInstanceAs (Decidable True)
  | .alarm => inferInstanceAs (Decidable (_ → _))

/-- What a step has to do.  The context is in the ring at most once, and a burst fits into `objs`; the loop
handles the requests that were submitted, in their order, and all of them if it goes on; and when the thread
gets an answer, it is that of its own request, and nothing else is on its way. -/
structure RingRight (s : RingSys) (a : RingStep) : Prop where
  once : (s.step a).req_ring ≤ 1
  burst : s.burst ≤ SOCKET_OPS_CONTEXT_MAX_NUM
  handled : (s.step a).handled.map RingHandled.request <+: (s.step a).submitted
  drained : ∀ result error, ∃ k,
    ((fun s => s.loopStep result error)^[k] (s.step a)).handled.map RingHandled.request =
      (s.step a).submitted
  answer : s.app = .load → s.sc.completion = true →
    s.req_ring = 0 ∧ s.loop = .next 0 ∧ s.handled.map RingHandled.request = s.submitted ∧
      ∃ before, s.handled = before ++ [⟨s.call.ops, s.call.args, s.sc.result, s.sc.error⟩]

/-! ## The state of a request -/

/-- The last request that the loop has handled is that of the thread, with this answer. -/
def LastHandled (s : RingSys) (result error : ℤ) : Prop :=
  ∃ before, s.handled = before ++ [⟨s.call.ops, s.call.args, result, error⟩]

/-- The loop has nothing to do. -/
structure RingQuiet (s : RingSys) : Prop where
  ring : s.req_ring = 0
  loop : s.loop = .next 0
  handled : s.handled.map RingHandled.request = s.submitted

/-- The request of the thread is in the context, and is still to be handled. -/
structure RingWritten (s : RingSys) : Prop where
  ops : s.sc.ops = s.call.ops
  args : s.sc.args = s.call.args
  submitted : s.submitted = s.handled.map RingHandled.request ++ [(s.call.ops, s.call.args)]

/-- How far the loop is with the request of the thread. -/
inductive RingPending (s : RingSys) : Prop
  | ring (hring : s.req_ring = 1) (hloop : s.loop = .next 0) (h : RingWritten s)
  | taken (hring : s.req_ring = 0) (hloop : s.loop = .next 1) (h : RingWritten s)
  | called (result error : ℤ) (hring : s.req_ring = 0) (hloop : s.loop = .result 0 result error)
      (hdone : s.handled.map RingHandled.request = s.submitted) (hlast : LastHandled s result error)
  | stored (error : ℤ) (hring : s.req_ring = 0) (hloop : s.loop = .error 0 error)
      (hdone : s.handled.map RingHandled.request = s.submitted) (hlast : LastHandled s s.sc.result error)
  | ended (hring : s.req_ring = 0) (hloop : s.loop = .complete 0)
      (hdone : s.handled.map RingHandled.request = s.submitted)
      (hlast : LastHandled s s.sc.result s.sc.error)

/-- A request that is completed. -/
structure RingCompleted (s : RingSys) : Prop extends RingQuiet s where
  completion : s.sc.completion = true
  last : LastHandled s s.sc.result s.sc.error

/-- What holds in each phase of a request. -/
def RingSettled (s : RingSys) : Prop :=
  match s.app with
  | .idle => RingQuiet s ∨ RingPending s
  | .args => RingQuiet s ∧ s.sc.ops = s.call.ops
  | .result => RingQuiet s ∧ s.sc.ops = s.call.ops ∧ s.sc.args = s.call.args
  | .error => RingQuiet s ∧ s.sc.ops = s.call.ops ∧ s.sc.args = s.call.args
  | .completion => RingQuiet s ∧ s.sc.ops = s.call.ops ∧ s.sc.args = s.call.args
  | .enqueue => RingQuiet s ∧ s.sc.ops = s.call.ops ∧ s.sc.args = s.call.args ∧ s.sc.completion = false
  | .load => (RingPending s ∧ s.sc.completion = false) ∨ RingCompleted s
  | .clock => (RingPending s ∧ s.sc.completion = false) ∨ RingCompleted s

/-! ## Steps of the loop -/

theorem RingQuiet.loopStep (h : RingQuiet s) (result error : ℤ) : s.loopStep result error = s := by
  have hburst : s.burst = 0 := by
    unfold RingSys.burst
    rw [h.ring]
    exact Nat.zero_min _
  unfold RingSys.loopStep
  rw [h.loop]
  dsimp only
  rw [hburst, Nat.sub_zero, ← h.loop]

/-- INTERNAL: the loop goes on with a request, and completes it at last. -/
theorem RingPending.loopStep (h : RingPending s) (result error : ℤ) :
    (RingPending (s.loopStep result error) ∧
        (s.loopStep result error).sc.completion = s.sc.completion) ∨
      RingCompleted (s.loopStep result error) := by
  unfold RingSys.loopStep
  cases h with
  | ring hring hloop h =>
    have hburst : s.burst = 1 := by
      unfold RingSys.burst
      rw [hring]
      rfl
    rw [hloop]
    dsimp only
    rw [hburst, hring]
    exact Or.inl ⟨.taken rfl rfl ⟨h.ops, h.args, h.submitted⟩, rfl⟩
  | taken hring hloop h =>
    rw [hloop]
    dsimp only
    rw [h.ops, h.args]
    refine Or.inl ⟨.called result error hring rfl ?_ ⟨s.handled, rfl⟩, rfl⟩
    rw [h.submitted, List.map_append]
    rfl
  | called result error hring hloop hdone hlast =>
    rw [hloop]
    exact Or.inl ⟨.stored error hring rfl hdone hlast, rfl⟩
  | stored error hring hloop hdone hlast =>
    rw [hloop]
    exact Or.inl ⟨.ended hring rfl hdone hlast, rfl⟩
  | ended hring hloop hdone hlast =>
    rw [hloop]
    exact Or.inr ⟨⟨hring, rfl, hdone⟩, rfl, hlast⟩

/-! ## Steps of all parties -/

theorem RingSettled.begin (h : RingSettled s) (call : RingCall) (hidle : s.app = .idle)
    (hring : s.req_ring = 0) (hloop : s.loop = .next 0) :
    RingSettled { s with sc := { s.sc with ops := call.ops }, app := .args, call := call } := by
  unfold RingSettled at h
  rw [hidle] at h
  rcases h with hquiet | hpending
  · exact ⟨⟨hquiet.ring, hquiet.loop, hquiet.handled⟩, rfl⟩
  · exfalso
    cases hpending with
    | ring hone => omega
    | taken _ hl => simp [hloop] at hl
    | called _ _ _ hl => simp [hloop] at hl
    | stored _ _ hl => simp [hloop] at hl
    | ended _ hl => simp [hloop] at hl

/-- A change of what the thread does next and of `completion` only. -/
theorem RingPending.setApp (h : RingPending s) (app : SubmitPc) (completion : Bool) :
    RingPending { s with app := app, sc := { s.sc with completion := completion } } := by
  cases h with
  | ring hring hloop h => exact .ring hring hloop ⟨h.ops, h.args, h.submitted⟩
  | taken hring hloop h => exact .taken hring hloop ⟨h.ops, h.args, h.submitted⟩
  | called result error hring hloop hdone hlast => exact .called result error hring hloop hdone hlast
  | stored error hring hloop hdone hlast => exact .stored error hring hloop hdone hlast
  | ended hring hloop hdone hlast => exact .ended hring hloop hdone hlast

/-- INTERNAL: a step of the thread. -/
theorem RingSettled.appStep (h : RingSettled s) (expired : Bool) : RingSettled (s.appStep expired) := by
  unfold RingSettled at h
  unfold RingSys.appStep
  cases happ : s.app with
  | idle =>
    rw [happ] at h
    dsimp only
    unfold RingSettled
    rw [happ]
    exact h
  | args =>
    rw [happ] at h
    exact ⟨⟨h.1.ring, h.1.loop, h.1.handled⟩, h.2, rfl⟩
  | result =>
    rw [happ] at h
    exact ⟨⟨h.1.ring, h.1.loop, h.1.handled⟩, h.2⟩
  | error =>
    rw [happ] at h
    exact ⟨⟨h.1.ring, h.1.loop, h.1.handled⟩, h.2⟩
  | completion =>
    rw [happ] at h
    exact ⟨⟨h.1.ring, h.1.loop, h.1.handled⟩, h.2.1, h.2.2, rfl⟩
  | enqueue =>
    rw [happ] at h
    obtain ⟨hquiet, hops, hargs, hcompletion⟩ := h
    dsimp only
    rw [hquiet.ring, if_pos (by decide), ← hquiet.handled]
    exact Or.inl ⟨.ring rfl hquiet.loop ⟨hops, hargs, rfl⟩, hcompletion⟩
  | load =>
    rw [happ] at h
    dsimp only
    rcases h with ⟨hpending, hcompletion⟩ | hcompleted
    · rw [hcompletion, if_neg (by simp)]
      exact Or.inl ⟨hpending.setApp .clock s.sc.completion, hcompletion⟩
    · rw [if_pos hcompleted.completion]
      exact Or.inl ⟨hcompleted.ring, hcompleted.loop, hcompleted.handled⟩
  | clock =>
    rw [happ] at h
    dsimp only
    split
    · rcases h with ⟨hpending, -⟩ | hcompleted
      · exact Or.inr (hpending.setApp .idle s.sc.completion)
      · exact Or.inl ⟨hcompleted.ring, hcompleted.loop, hcompleted.handled⟩
    · rcases h with ⟨hpending, hcompletion⟩ | hcompleted
      · exact Or.inl ⟨hpending.setApp .load s.sc.completion, hcompletion⟩
      · exact Or.inr ⟨⟨hcompleted.ring, hcompleted.loop, hcompleted.handled⟩, hcompleted.completion,
          hcompleted.last⟩

/-- INTERNAL: where a request can be: the loop has nothing to do, or the thread waits for it, or the thread
has timed out. -/
theorem RingSettled.places (h : RingSettled s) :
    RingQuiet s ∨ (s.app = .idle ∧ RingPending s) ∨
      ((s.app = .load ∨ s.app = .clock) ∧ RingPending s ∧ s.sc.completion = false) := by
  unfold RingSettled at h
  cases happ : s.app with
  | idle =>
    rw [happ] at h
    rcases h with hquiet | hpending
    · exact Or.inl hquiet
    · exact Or.inr (Or.inl ⟨rfl, hpending⟩)
  | load =>
    rw [happ] at h
    rcases h with hpending | hcompleted
    · exact Or.inr (Or.inr ⟨Or.inl rfl, hpending⟩)
    · exact Or.inl hcompleted.toRingQuiet
  | clock =>
    rw [happ] at h
    rcases h with hpending | hcompleted
    · exact Or.inr (Or.inr ⟨Or.inr rfl, hpending⟩)
    · exact Or.inl hcompleted.toRingQuiet
  | _ =>
    -- in the other phases the request is not submitted yet
    rw [happ] at h
    exact Or.inl h.1

theorem RingSettled.quiet_or_pending (h : RingSettled s) : RingQuiet s ∨ RingPending s := by
  rcases h.places with hquiet | ⟨-, hpending⟩ | ⟨-, hpending, -⟩
  · exact Or.inl hquiet
  · exact Or.inr hpending
  · exact Or.inr hpending

theorem loopStep_app (s : RingSys) (result error : ℤ) : (s.loopStep result error).app = s.app := by
  unfold RingSys.loopStep
  split
  · rfl
  · rfl
  · rfl
  · rfl
  · rfl

/-- INTERNAL: a step of the loop. -/
theorem RingSettled.loopStep (h : RingSettled s) (result error : ℤ) :
    RingSettled (s.loopStep result error) := by
  have happs := loopStep_app s result error
  rcases h.places with hquiet | ⟨hidle, hpending⟩ | ⟨hwaits, hpending, hcompletion⟩
  · rw [hquiet.loopStep]
    exact h
  · unfold RingSettled
    rw [happs, hidle]
    rcases hpending.loopStep result error with ⟨hnext, -⟩ | hdone
    · exact Or.inr hnext
    · exact Or.inl hdone.toRingQuiet
  · have hnext : (RingPending (s.loopStep result error) ∧
        (s.loopStep result error).sc.completion = false) ∨ RingCompleted (s.loopStep result error) := by
      rcases hpending.loopStep result error with ⟨hnext, hsame⟩ | hdone
      · exact Or.inl ⟨hnext, hsame.trans hcompletion⟩
      · exact Or.inr hdone
    unfold RingSettled
    rw [happs]
    rcases hwaits with hload | hclock
    · rw [hload]
      exact hnext
    · rw [hclock]
      exact hnext

/-- INTERNAL: a wakeup. -/
theorem RingSettled.alarm (h : RingSettled s)
    (hsafe : SubmitPc.cleared s.app = true → s.sc.completion = true) :
    RingSettled { s with sc := { s.sc with completion := true } } := by
  -- after `completion` is cleared, the wakeup changes nothing
  have hsame : s.sc.completion = true → RingSettled { s with sc := { s.sc with completion := true } } := by
    intro hcompletion
    have hsc : { s.sc with completion := true } = s.sc := by
      rw [← hcompletion]
    rw [hsc]
    exact h
  unfold RingSettled at h
  cases happ : s.app with
  | idle =>
    rw [happ] at h
    rcases h with hquiet | hpending
    · exact Or.inl ⟨hquiet.ring, hquiet.loop, hquiet.handled⟩
    · exact Or.inr (hpending.setApp .idle true)
  | enqueue =>
    rw [happ] at hsafe hsame
    exact hsame (hsafe rfl)
  | load =>
    rw [happ] at hsafe hsame
    exact hsame (hsafe rfl)
  | clock =>
    rw [happ] at hsafe hsame
    exact hsame (hsafe rfl)
  | _ =>
    rw [happ] at h
    exact ⟨⟨h.1.ring, h.1.loop, h.1.handled⟩, h.2⟩

/-- INTERNAL: a safe step keeps the request in order. -/
theorem RingSettled.step (h : RingSettled s) {a : RingStep} (hsafe : RingSafe s a) :
    RingSettled (s.step a) := by
  cases a with
  | begin call =>
    unfold RingSys.step
    dsimp only
    split
    · rename_i hidle
      obtain ⟨hring, hloop⟩ := hsafe hidle
      exact h.begin call hidle hring hloop
    · exact h
  | app expired => exact h.appStep expired
  | loop result error => exact h.loopStep result error
  | alarm => exact h.alarm hsafe

/-! ## What follows -/

theorem RingSettled.ring_le (h : RingSettled s) : s.req_ring ≤ 1 := by
  rcases h.quiet_or_pending with hquiet | hpending
  · rw [hquiet.ring]
    exact Nat.zero_le _
  · cases hpending with
    | ring hring => omega
    | taken hring => omega
    | called _ _ hring => omega
    | stored _ hring => omega
    | ended hring => omega

theorem RingSettled.handled_begins (h : RingSettled s) :
    s.handled.map RingHandled.request <+: s.submitted := by
  rcases h.quiet_or_pending with hquiet | hpending
  · rw [hquiet.handled]
  · cases hpending with
    | ring _ _ h =>
      rw [h.submitted]
      exact List.prefix_append _ _
    | taken _ _ h =>
      rw [h.submitted]
      exact List.prefix_append _ _
    | called _ _ _ _ hdone => rw [hdone]
    | stored _ _ _ hdone => rw [hdone]
    | ended _ _ hdone => rw [hdone]

/-- INTERNAL: the loop handles what is submitted. -/
theorem RingSettled.drained (h : RingSettled s) (result error : ℤ) :
    ∃ k, ((fun s => s.loopStep result error)^[k] s).handled.map RingHandled.request = s.submitted := by
  rcases h.quiet_or_pending with hquiet | hpending
  · exact ⟨0, hquiet.handled⟩
  · cases hpending with
    | ring hring hloop h =>
      refine ⟨2, ?_⟩
      have hburst : s.burst = 1 := by
        unfold RingSys.burst
        rw [hring]
        rfl
      simp [RingSys.loopStep, hloop, hburst, h.ops, h.args, h.submitted, RingHandled.request]
    | taken hring hloop h =>
      refine ⟨1, ?_⟩
      simp [RingSys.loopStep, hloop, h.ops, h.args, h.submitted, RingHandled.request]
    | called _ _ _ _ hdone => exact ⟨0, hdone⟩
    | stored _ _ _ hdone => exact ⟨0, hdone⟩
    | ended _ _ hdone => exact ⟨0, hdone⟩

theorem RingSettled.answer (h : RingSettled s) (happ : s.app = .load) (hcompletion : s.sc.completion = true) :
    RingCompleted s := by
  unfold RingSettled at h
  rw [happ] at h
  rcases h with ⟨-, hnot⟩ | hcompleted
  · rw [hcompletion] at hnot
    cases hnot
  · exact hcompleted

/-- **Requests through the ring**.  In a run in which every request is begun when the loop is done
with the one before, and no wakeup comes for a request that is not completed, the context is in the ring at
most once, every submitted request is handled once and with its own arguments, and an answer is that of the
request the thread waits for.
SOURCE: adapter/syscall/ff_hook_syscall.c:3419-3478, ff_socket_ops.c:524-668, ff_ring_ipc.c:23-161 -/
theorem ring_requests_once (as : List RingStep) (hsafe : AllSteps RingSys.step RingSafe {} as) :
    AllSteps RingSys.step RingRight {} as := by
  have hinit : RingSettled {} := Or.inl ⟨rfl, rfl, rfl⟩
  have hkeep : ∀ s a, RingSettled s → RingSafe s a → RingSettled (s.step a) :=
    fun s a h hsafe => h.step hsafe
  apply AllSteps.imp hkeep _ hinit hsafe
  intro s a h hsafe
  have hnext := h.step hsafe
  refine ⟨hnext.ring_le, ?_, hnext.handled_begins, hnext.drained, ?_⟩
  · have hring := h.ring_le
    unfold RingSys.burst SOCKET_OPS_CONTEXT_MAX_NUM
    omega
  · intro happ hcompletion
    have hcompleted := h.answer happ hcompletion
    exact ⟨hcompleted.ring, hcompleted.loop, hcompleted.handled, hcompleted.last⟩

/-- A request that waits forever, and the loop that answers it. -/
def oneRequest : List RingStep :=
  [.begin ⟨7, 1, -1⟩, .app false, .app false, .app false, .app false, .app false, .app false, .loop 0 0,
    .loop 5 0, .loop 0 0, .loop 0 0, .loop 0 0, .app false, .app false]

theorem ring_requests_once_answered :
    AllSteps RingSys.step RingSafe {} oneRequest ∧ AllSteps RingSys.step RingRight {} oneRequest :=
  have hsafe : AllSteps RingSys.step RingSafe {} oneRequest := by
    decide
  ⟨hsafe, ring_requests_once oneRequest hsafe⟩

/-- A wait for events that is over at once, and the next request. -/
def timedOut : List RingStep :=
  [.begin ⟨7, 1, 0⟩, .app false, .app false, .app false, .app false, .app false, .app false, .app true,
    .begin ⟨8, 2, -1⟩, .app false, .app false, .app false, .app false, .app false]

/-- The context is in the ring twice, so the second request will be handled twice and the first never. -/
theorem timed_out_request_twice : ¬ AllSteps RingSys.step RingRight {} timedOut := by
  rintro ⟨-, -, -, -, -, -, -, -, -, -, -, -, -, hlast, -⟩
  have hring := hlast.once
  revert hring
  decide

end FStack.Analysis
