import FStack.Model.NginxHostEvent

/-!
# The registration of a host connection

The kernel has to be asked for exactly the events that nginx takes for active.  Each function relies on that: it says
`MOD` if the other event is active and `ADD` or `DEL` if it is not, and epoll refuses the wrong one.
`host_actions_right_iff` says which actions keep the registration in step.  The entry of the table that disables an
event is the function that adds one, so no action that disables an event is right.
-/

set_option autoImplicit false

namespace FStack.Analysis

open FStack.Model FStack.Prelude NgxConnection

variable {event : EvFilter}
variable {mask : BitVec 32} {act : EvFilter → Bool} {flags : List NgxEventFlag}

/-! ## What the actions have to do -/

/-- All these events are in the mask. -/
def HasEvents (mask events : BitVec 32) : Prop := mask &&& events = events

instance (mask events : BitVec 32) : Decidable (HasEvents mask events) := inferInstanceAs (Decidable (_ = _))

/-- The descriptor is registered for the active events, and not at all if there is none. -/
structure InStep (c : NgxConnection) : Prop where
  registered : c.registered.isSome = true ↔ ∃ event, c.active event = true
  mask : ∀ m, c.registered = some m → ∀ event, HasEvents m (epollEvents event) ↔ c.active event = true

/-- The events that are active after an action. -/
def activeAfter (c : NgxConnection) : NgxAction → EvFilter → Bool
  | .add event _ => Function.update c.active event true
  | .enable event _ => Function.update c.active event true
  | .del event _ => Function.update c.active event false
  | .disable event _ => Function.update c.active event false
  | .addConn => fun _ => true
  | .delConn _ => fun _ => false

/-- An action succeeds, sets the flags and keeps the registration in step. -/
def ActionRight (c : NgxConnection) (action : NgxAction) : Prop :=
  (c.call action).2 = .NGX_OK ∧ (c.step action).active = activeAfter c action ∧ InStep (c.step action)

/-- An event is added or enabled if it is not active, and deleted or disabled if it is. -/
def ActionIssued (c : NgxConnection) : NgxAction → Prop
  | .add event _ => c.active event = false
  | .enable event _ => c.active event = false
  | .del event _ => c.active event = true
  | .disable event _ => c.active event = true
  | .addConn => True
  | .delConn _ => True

/-- No event is disabled, an event is not deleted with the flag of a descriptor that is being closed, a connection is
added if none of its events is active, and it is deleted if one is, and without that flag. -/
def ActionSafe (c : NgxConnection) : NgxAction → Prop
  | .add _ _ => True
  | .enable _ _ => True
  | .del _ flags => .closeEvent ∉ flags
  | .disable _ _ => False
  | .addConn => ∀ event, c.active event = false
  | .delConn flags => .closeEvent ∉ flags ↔ ∃ event, c.active event = true

/-! ## Masks -/

/-- The bit that tells a direction. -/
def directionIndex : EvFilter → ℕ
  | .read => 0
  | .write => 2

/-- INTERNAL: the events of a direction have its bit and not that of the other one. -/
theorem epollEvents_bit (event other : EvFilter) :
    (epollEvents other).getLsbD (directionIndex event) = decide (other = event) := by
  cases event <;> cases other <;> rfl

theorem ngxFlags_or (flag : NgxEventFlag) (flags : List NgxEventFlag) :
    ngxFlags (flag :: flags) = flag.bits ||| ngxFlags flags := rfl

/-- INTERNAL: no flag of a kevent has the bit of a direction. -/
theorem ngxFlags_bit (flags : List NgxEventFlag) (event : EvFilter) :
    ((ngxFlags flags).setWidth 32).getLsbD (directionIndex event) = false := by
  rw [BitVec.getLsbD_setWidth]
  induction flags with
  | nil => cases event <;> rfl
  | cons flag flags ih =>
    rw [ngxFlags_or, BitVec.getLsbD_or, Bool.and_or_distrib_left, ih, Bool.or_false]
    cases event <;> cases flag <;> rfl

/-- INTERNAL: the flag of a descriptor that is being closed is among the flags if it has been given. -/
theorem closeEvent_iff (flags : List NgxEventFlag) :
    ngxFlags flags &&& NgxEventFlag.closeEvent.bits ≠ 0 ↔ .closeEvent ∈ flags := by
  have hbit : (ngxFlags flags).getLsbD 15 = true ↔ .closeEvent ∈ flags := by
    induction flags with
    | nil => exact iff_of_false (by decide) List.not_mem_nil
    | cons flag flags ih =>
      rw [ngxFlags_or, BitVec.getLsbD_or, Bool.or_eq_true, ih, List.mem_cons]
      apply or_congr_left
      cases flag <;> decide
  have hclose : NgxEventFlag.closeEvent.bits = BitVec.twoPow 64 15 := rfl
  rw [hclose, BitVec.and_twoPow, ← hbit]
  split
  · next hset => exact iff_of_true (by decide) hset
  · next hset => exact iff_of_false (fun hne => hne rfl) hset

theorem HasEvents.or_left {events : BitVec 32} (h : HasEvents mask events) (x : BitVec 32) :
    HasEvents (mask ||| x) events := by
  apply BitVec.eq_of_getLsbD_eq
  intro i hi
  have hbit := congrArg (·.getLsbD i) h
  simp only [BitVec.getLsbD_and] at hbit
  rw [BitVec.getLsbD_and, BitVec.getLsbD_or]
  cases hevents : events.getLsbD i with
  | false => exact Bool.and_false _
  | true =>
    rw [hevents, Bool.and_true] at hbit
    rw [hbit]
    rfl

theorem HasEvents.bit (h : HasEvents mask (epollEvents event)) :
    mask.getLsbD (directionIndex event) = true := by
  have hbit := congrArg (·.getLsbD (directionIndex event)) h
  simp only [BitVec.getLsbD_and, epollEvents_bit, decide_true, Bool.and_true] at hbit
  exact hbit

/-- The events of the directions that are active. -/
def activeEvents (act : EvFilter → Bool) : BitVec 32 :=
  (if act .read then epollEvents .read else 0) ||| (if act .write then epollEvents .write else 0)

theorem activeEvents_hasEvents (h : act event = true) :
    HasEvents (activeEvents act) (epollEvents event) := by
  unfold activeEvents
  cases event with
  | read => rw [if_pos h]; exact HasEvents.or_left (BitVec.and_self) _
  | write => rw [if_pos h, BitVec.or_comm]; exact HasEvents.or_left (BitVec.and_self) _

theorem activeEvents_bit (h : act event = false) :
    (activeEvents act).getLsbD (directionIndex event) = false := by
  rw [activeEvents, BitVec.getLsbD_or, apply_ite (BitVec.getLsbD · _), apply_ite (BitVec.getLsbD · _)]
  cases event <;> simp [h, epollEvents_bit]

/-- The events of the active directions, with any flags over them, have the events of no other direction. -/
theorem activeEvents_iff (act : EvFilter → Bool) (flags : List NgxEventFlag) (event : EvFilter) :
    HasEvents (activeEvents act ||| (ngxFlags flags).setWidth 32) (epollEvents event) ↔ act event = true := by
  constructor
  · intro h
    by_contra hact
    have hbit := h.bit
    rw [BitVec.getLsbD_or, activeEvents_bit (Bool.not_eq_true _ ▸ hact), ngxFlags_bit] at hbit
    exact absurd hbit (by decide)
  · intro hact
    exact (activeEvents_hasEvents hact).or_left _

/-! ## One action -/

/-- A call of epoll that succeeds leaves the flags `active` alone. -/
@[simp] theorem active_registered (c : NgxConnection) (registered : Option (BitVec 32)) :
    ({ c with registered := registered } : NgxConnection).active = c.active := by
  funext event
  cases event <;> rfl

@[simp] theorem active_setActive (c : NgxConnection) (value : Bool) (event : EvFilter) :
    (c.setActive value event).active = Function.update c.active event value := by
  funext other
  cases event <;> cases other <;> rfl

@[simp] theorem registered_setActive (c : NgxConnection) (value : Bool) (event : EvFilter) :
    (c.setActive value event).registered = c.registered := by
  cases event <;> rfl

section Action

variable {c : NgxConnection}

theorem InStep.of_none (hreg : c.registered = none) (hact : ∀ event, c.active event = false) : InStep c where
  registered := by simp [hreg, hact]
  mask := by simp [hreg]

theorem InStep.of_some (flags : List NgxEventFlag)
    (hreg : c.registered = some (activeEvents c.active ||| (ngxFlags flags).setWidth 32))
    (hact : c.active event = true) :
    InStep c where
  registered := by simpa [hreg] using ⟨event, hact⟩
  mask := by
    intro m hm
    rw [hreg, Option.some.injEq] at hm
    rw [← hm]
    exact activeEvents_iff _ _

/-- A descriptor that is not registered has no active event. -/
theorem InStep.none_iff (h : InStep c) : c.registered = none ↔ ∀ event, c.active event = false := by
  rw [← Option.not_isSome_iff_eq_none, h.registered]
  simp only [not_exists, Bool.not_eq_true]

theorem InStep.exists_mask (h : InStep c) (hact : c.active event = true) :
    ∃ m, c.registered = some m :=
  Option.isSome_iff_exists.mp (h.registered.mpr ⟨event, hact⟩)

/-- INTERNAL: a direction and the other one are the two directions. -/
theorem forall_event_iff {P : EvFilter → Prop} (event : EvFilter) :
    (∀ e, P e) ↔ P event ∧ P (otherEvent event) := by
  constructor
  · exact fun h => ⟨h _, h _⟩
  · rintro ⟨h, hother⟩ e
    cases event <;> cases e <;> assumption

@[simp] theorem otherEvent_ne (event : EvFilter) : otherEvent event ≠ event := by
  cases event <;> exact EvFilter.noConfusion

/-- INTERNAL: the events after one direction has been set. -/
theorem activeEvents_update (act : EvFilter → Bool) (event : EvFilter) (value : Bool) :
    activeEvents (Function.update act event value) = (if value then epollEvents event else 0) |||
      if act (otherEvent event) then epollEvents (otherEvent event) else 0 := by
  unfold activeEvents
  cases event with
  | read => rw [Function.update_self, Function.update_of_ne (by decide)]; rfl
  | write => rw [Function.update_self, Function.update_of_ne (by decide), BitVec.or_comm]; rfl

/-- INTERNAL: a connection that has just been registered for the active events. -/
def registeredFor (c : NgxConnection) (event : EvFilter) (value : Bool) (flags : List NgxEventFlag) : NgxConnection :=
  let act := Function.update c.active event value
  ({ c with registered := some (activeEvents act ||| (ngxFlags flags).setWidth 32) } : NgxConnection).setActive value event

theorem active_registeredFor (c : NgxConnection) (event : EvFilter) (value : Bool) (flags : List NgxEventFlag) :
    (registeredFor c event value flags).active = Function.update c.active event value := by
  simp [registeredFor]

theorem registeredFor_inStep {e : EvFilter} {value : Bool} (flags : List NgxEventFlag)
    (h : Function.update c.active event value e = true) : InStep (registeredFor c event value flags) := by
  rw [← active_registeredFor c event value flags] at h
  refine InStep.of_some flags ?_ h
  rw [active_registeredFor]
  exact registered_setActive _ _ _

/-- An event that is not active is added. -/
theorem addEvent_eq (h : InStep c) (hact : c.active event = false) (flags : List NgxEventFlag) :
    ngxFfEpollAddEvent c event (ngxFlags flags) = (registeredFor c event true flags, .NGX_OK) := by
  unfold ngxFfEpollAddEvent registeredFor
  cases hother : c.active (otherEvent event) with
  | true =>
    obtain ⟨m, hm⟩ := h.exists_mask hother
    simp [epollCtl, hm, activeEvents_update, hother]
  | false =>
    have hnone : c.registered = none := h.none_iff.mpr ((forall_event_iff event).mpr ⟨hact, hother⟩)
    simp [epollCtl, hnone, activeEvents_update, hother]

/-- An event that is active is taken out of the registration, which stays for the other event. -/
theorem delEvent_eq (h : InStep c) (hact : c.active event = true) (hclose : .closeEvent ∉ flags) :
    ngxFfEpollDelEvent c event (ngxFlags flags) =
      (if c.active (otherEvent event) then registeredFor c event false flags
        else ({ c with registered := none } : NgxConnection).setActive false event, .NGX_OK) := by
  obtain ⟨m, hm⟩ := h.exists_mask hact
  unfold ngxFfEpollDelEvent registeredFor
  rw [if_neg (mt (closeEvent_iff flags).mp hclose)]
  cases hother : c.active (otherEvent event) <;> simp [epollCtl, hm, activeEvents_update, hother]

/-- With the flag of a descriptor that is being closed the registration stays as it is. -/
theorem delEvent_close (c : NgxConnection) (event : EvFilter) (hclose : .closeEvent ∈ flags) :
    ngxFfEpollDelEvent c event (ngxFlags flags) = (c.setActive false event, .NGX_OK) := by
  unfold ngxFfEpollDelEvent
  rw [if_pos ((closeEvent_iff flags).mpr hclose)]

/-- An event that has been added is active. -/
theorem addEvent_active (c : NgxConnection) (event : EvFilter) (flags : BitVec 64)
    (h : (ngxFfEpollAddEvent c event flags).2 = .NGX_OK) :
    (ngxFfEpollAddEvent c event flags).1.active event = true := by
  unfold ngxFfEpollAddEvent at h ⊢
  dsimp only at h ⊢
  split at h
  · exact absurd h NgxRet.noConfusion
  · simp

/-! ## Right actions -/

theorem add_right_iff (h : InStep c) (hact : c.active event = false) (flags : List NgxEventFlag) :
    ActionRight c (.add event flags) ↔ ActionSafe c (.add event flags) := by
  have hcall : c.call (.add event flags) = (registeredFor c event true flags, .NGX_OK) := addEvent_eq h hact flags
  refine iff_of_true ?_ trivial
  unfold ActionRight step
  rw [hcall]
  have hset : Function.update c.active event true event = true := Function.update_self event true c.active
  exact ⟨rfl, active_registeredFor c event true flags, registeredFor_inStep flags hset⟩

/-- The table has the same function for an event that is enabled. -/
theorem enable_right_iff (h : InStep c) (hact : c.active event = false) (flags : List NgxEventFlag) :
    ActionRight c (.enable event flags) ↔ ActionSafe c (.enable event flags) :=
  add_right_iff h hact flags

theorem del_right_iff (h : InStep c) (hact : c.active event = true) (flags : List NgxEventFlag) :
    ActionRight c (.del event flags) ↔ ActionSafe c (.del event flags) := by
  unfold ActionRight step
  by_cases hclose : .closeEvent ∈ flags
  · have hcall : c.call (.del event flags) = (c.setActive false event, .NGX_OK) := delEvent_close c event hclose
    obtain ⟨m, hm⟩ := h.exists_mask hact
    refine iff_of_false ?_ (not_not.mpr hclose)
    rw [hcall]
    rintro ⟨-, -, hstep⟩
    -- The descriptor is still registered for the event.
    have hset := (hstep.mask m ((registered_setActive c false event).trans hm) event).mp ((h.mask m hm event).mpr hact)
    rw [active_setActive, Function.update_self] at hset
    exact absurd hset (by decide)
  · have hcall : c.call (.del event flags) = _ := delEvent_eq h hact hclose
    refine iff_of_true ?_ hclose
    rw [hcall]
    cases hother : c.active (otherEvent event) with
    | true =>
      have hstays : Function.update c.active event false (otherEvent event) = true := by simpa using hother
      exact ⟨rfl, active_registeredFor c event false flags, registeredFor_inStep flags hstays⟩
    | false =>
      refine ⟨rfl, active_setActive _ _ _, InStep.of_none (registered_setActive _ _ _) fun e => ?_⟩
      revert e
      rw [forall_event_iff event]
      simpa using hother

/-- An event that is disabled is added, so it is active if the call succeeds. -/
theorem disable_right_iff (c : NgxConnection) (event : EvFilter) (flags : List NgxEventFlag) :
    ActionRight c (.disable event flags) ↔ ActionSafe c (.disable event flags) := by
  refine iff_of_false ?_ not_false
  rintro ⟨hok, hset, -⟩
  have hactive : (c.step (.disable event flags)).active event = true := addEvent_active c event (ngxFlags flags) hok
  rw [hset, activeAfter, Function.update_self] at hactive
  exact absurd hactive (by decide)

theorem addConn_right_iff (h : InStep c) : ActionRight c .addConn ↔ ActionSafe c .addConn := by
  unfold ActionSafe
  rw [← h.none_iff]
  constructor
  · rintro ⟨hok, -, -⟩
    by_contra hreg
    obtain ⟨m, hm⟩ := Option.ne_none_iff_exists'.mp hreg
    have hcall : c.call .addConn = (c, .NGX_ERROR) := by
      show ngxFfEpollAddConnection c = _
      simp [ngxFfEpollAddConnection, epollCtl, hm]
    rw [hcall] at hok
    exact absurd hok NgxRet.noConfusion
  · intro hreg
    have hcall : c.call .addConn =
        (⟨true, true, some (EPOLLIN ||| EPOLLOUT ||| EPOLLET ||| EPOLLRDHUP)⟩, .NGX_OK) := by
      show ngxFfEpollAddConnection c = _
      simp [ngxFfEpollAddConnection, epollCtl, hreg, setActive]
    have hactive : ∀ m, (⟨true, true, m⟩ : NgxConnection).active = fun _ => true := by
      intro m
      funext event
      cases event <;> rfl
    unfold ActionRight step
    rw [hcall]
    refine ⟨rfl, hactive _, ⟨iff_of_true rfl ⟨.read, rfl⟩, ?_⟩⟩
    rintro m ⟨⟩ event
    rw [hactive]
    cases event <;> decide

theorem delConn_right_iff (h : InStep c) (flags : List NgxEventFlag) :
    ActionRight c (.delConn flags) ↔ ActionSafe c (.delConn flags) := by
  have hinactive : ((c.setActive false .read).setActive false .write).active = fun _ => false := by
    funext event
    cases event <;> rfl
  have hsafe : ActionSafe c (.delConn flags) ↔ (.closeEvent ∉ flags ↔ c.registered.isSome = true) := by
    rw [h.registered]
    exact Iff.rfl
  rw [hsafe]
  unfold ActionRight step
  by_cases hclose : .closeEvent ∈ flags
  · have hcall : c.call (.delConn flags) = ((c.setActive false .read).setActive false .write, .NGX_OK) := by
      show ngxFfEpollDelConnection c _ = _
      rw [ngxFfEpollDelConnection, if_pos ((closeEvent_iff flags).mpr hclose)]
    rw [hcall, iff_false_left (not_not.mpr hclose), Option.not_isSome_iff_eq_none]
    constructor
    · rintro ⟨-, -, hstep⟩
      exact hstep.none_iff.mpr fun event => by rw [hinactive]
    · intro hreg
      exact ⟨rfl, hinactive, InStep.of_none hreg fun event => by rw [hinactive]⟩
  · have hskip := mt (closeEvent_iff flags).mp hclose
    rw [iff_true_left hclose]
    cases hreg : c.registered with
    | none =>
      have hcall : c.call (.delConn flags) = (c, .NGX_ERROR) := by
        show ngxFfEpollDelConnection c _ = _
        unfold ngxFfEpollDelConnection
        exact (if_neg hskip).trans (by simp [epollCtl, hreg])
      rw [hcall]
      refine iff_of_false ?_ (by decide)
      rintro ⟨hok, -, -⟩
      exact NgxRet.noConfusion hok
    | some m =>
      have hcall : c.call (.delConn flags) =
          ((({ c with registered := none } : NgxConnection).setActive false .read).setActive false .write,
            .NGX_OK) := by
        show ngxFfEpollDelConnection c _ = _
        unfold ngxFfEpollDelConnection
        exact (if_neg hskip).trans (by simp [epollCtl, hreg])
      rw [hcall]
      refine iff_of_true ?_ rfl
      have hinactive' : ∀ e, (((({ c with registered := none } : NgxConnection).setActive false .read).setActive
          false .write).active e) = false := by
        intro e
        cases e <;> rfl
      exact ⟨rfl, funext hinactive', InStep.of_none rfl hinactive'⟩

end Action

theorem action_right_iff {c : NgxConnection} {action : NgxAction} (h : InStep c) (hissued : ActionIssued c action) :
    ActionRight c action ↔ ActionSafe c action := by
  cases action with
  | add event flags => exact add_right_iff h hissued flags
  | del event flags => exact del_right_iff h hissued flags
  | enable event flags => exact enable_right_iff h hissued flags
  | disable event flags => exact disable_right_iff c event flags
  | addConn => exact addConn_right_iff h
  | delConn flags => exact delConn_right_iff h flags

theorem fresh_inStep : InStep fresh := InStep.of_none rfl fun event => by cases event <;> rfl

/-! ## Runs -/

/-- Every run on a connection that has just been made keeps its registration in step, and no action fails, if and only
if it disables no event and tells of a descriptor that is being closed only if nothing is registered for it. -/
theorem host_actions_right_iff {actions : List NgxAction}
    (hissued : AllSteps NgxConnection.step ActionIssued fresh actions) :
    AllSteps NgxConnection.step ActionRight fresh actions ↔ AllSteps NgxConnection.step ActionSafe fresh actions := by
  apply allSteps_issued_iff (I := InStep) (D := ActionIssued) _ (fun c action h => action_right_iff h) fresh_inStep hissued
  intro c action h hissued hsafe
  exact ((action_right_iff h hissued).mpr hsafe).2.2

/-- A connection whose two events are added, of which the first is deleted. -/
theorem two_events_added :
    AllSteps NgxConnection.step ActionIssued fresh [.add .read [.clearEvent], .add .write [.clearEvent], .del .read []] ∧
      AllSteps NgxConnection.step ActionRight fresh
        [.add .read [.clearEvent], .add .write [.clearEvent], .del .read []] := by
  have hissued : AllSteps NgxConnection.step ActionIssued fresh
      [.add .read [.clearEvent], .add .write [.clearEvent], .del .read []] := ⟨rfl, rfl, rfl, trivial⟩
  refine ⟨hissued, (host_actions_right_iff hissued).mpr ⟨trivial, trivial, ?_, trivial⟩⟩
  exact List.not_mem_nil

/-- A read event that is active is disabled: the kernel has the descriptor already, and the event stays active. -/
theorem read_event_disabled :
    ¬ ∀ actions : List NgxAction, AllSteps NgxConnection.step ActionIssued fresh actions →
      AllSteps NgxConnection.step ActionRight fresh actions := by
  intro h
  have hissued : AllSteps NgxConnection.step ActionIssued fresh [.add .read [], .disable .read []] :=
    ⟨rfl, rfl, trivial⟩
  have hok := (h _ hissued).2.1.1
  exact absurd hok (by decide)

end FStack.Analysis
