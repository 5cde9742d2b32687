import Mathlib.Algebra.Order.Ring.Int

/-!
# Requests with a status and a semaphore

In the default build of the adapter a request goes through the field `status` of a context: a thread waits for
`FF_SC_IDLE`, writes its request and sets `FF_SC_REQ`; the F-Stack loop calls the handler and sets `FF_SC_REP`;
and the thread sets `FF_SC_IDLE` again.  For `epoll_wait` and `kevent` the thread does not spin on the status but
waits for a semaphore, `wait_sem`, that the loop posts (`adapter/syscall/ff_hook_syscall.c`, `ff_socket_ops.c`).

What is done under `sc->lock` is one step.  A thread that waits for a semaphore may be woken by a post, by its
deadline or by a signal at any time; between this and the lock that it takes next there is room for others.
`answer` and `applied` are not known to the program: the result with which the status became `FF_SC_REP`, and how
often the changelist of the call was applied.
-/

set_option autoImplicit false

namespace FStack.Model

/-- SOURCE: adapter/syscall/ff_socket_ops.h:83-87 -/
inductive ScStatus where
  | FF_SC_IDLE
  | FF_SC_REQ
  | FF_SC_REP
deriving DecidableEq, Repr

/-- A call of the application: one of those that use `SYSCALL`, `epoll_wait` with a timeout in milliseconds,
or `kevent`, where no timeout is a null pointer. -/
inductive SemCall where
  | syscall
  | epoll_wait (maxevents timeout : ℤ)
  | kevent (nchanges : ℕ) (nevents : ℤ) (timeout : Option ℕ)
deriving DecidableEq, Repr

namespace SemCall

/-- The call waits for the semaphore. -/
def usesSem : SemCall → Bool
  | .syscall => false
  | _ => true

/-- How long a call waits for the semaphore with `sem_timedwait`; others use `sem_wait`.
SOURCE: adapter/syscall/ff_hook_syscall.c:2381-2389, 2686-2706 -/
def timed : SemCall → Option ℕ
  | .syscall => none
  | .epoll_wait _ timeout => if 0 < timeout then some timeout.toNat else none
  | .kevent _ _ timeout => timeout

/-- `nchanges` of the arguments. -/
def changes : SemCall → ℕ
  | .kevent nchanges _ _ => nchanges
  | _ => 0

/-- The value of `sem_flag` after the handler of the call has answered `ret`.
SOURCE: adapter/syscall/ff_socket_ops.c:336-340, 371-375 -/
def semFlag : SemCall → ℤ → Bool
  | .syscall, _ => false
  | .epoll_wait maxevents timeout, ret => !(timeout == 0 && ret == 0 && maxevents != 0)
  | .kevent _ nevents timeout, ret => !(timeout.isNone && ret == 0 && nevents != 0)

/-- `epoll_wait` without a positive timeout tries again when there are no events.
SOURCE: adapter/syscall/ff_hook_syscall.c:2438-2443 -/
def retries : SemCall → ℤ → Bool
  | .epoll_wait _ timeout, ret => timeout ≤ 0 && ret == 0
  | _, _ => false

end SemCall

/-- How a wait for the semaphore ended. -/
inductive SemWaited where
  | posted
  | timedout
  | interrupted
deriving DecidableEq, Repr

/-- What the thread that has written the request does: it spins on the status, waits for the semaphore, or is
about to take the lock after its wait. -/
inductive SemPc where
  | none
  | spins
  | waits
  | woken (ret : SemWaited)
deriving DecidableEq, Repr

/-- A context, with the request in it and the thread that has written it.
SOURCE: adapter/syscall/ff_socket_ops.h:115-142 -/
structure SemSc where
  status : ScStatus := .FF_SC_IDLE
  call : SemCall := .syscall
  nchanges : ℕ := 0
  result : ℤ := 0
  error : ℤ := 0
  wait_sem : ℕ := 0
  need_alarm_sem : Bool := false
  pc : SemPc := .none
  deadline : ℕ := 0
  answer : Option ℤ := none
  applied : ℕ := 0

namespace SemSc

/-- A thread writes a request, once the context is idle.
SOURCE: adapter/syscall/ff_hook_syscall.c:186-197, 2338-2357, 2662-2685 -/
def submit (sc : SemSc) (call : SemCall) (now : ℕ) : SemSc :=
  if sc.status = .FF_SC_IDLE then
    { sc with
      status := .FF_SC_REQ
      call := call
      nchanges := call.changes
      result := if call.usesSem then 0 else sc.result
      error := if call.usesSem then 0 else sc.error
      need_alarm_sem := if call.usesSem && call.timed.isNone then true else sc.need_alarm_sem
      pc := if call.usesSem then .waits else .spins
      deadline := now + call.timed.getD 0
      answer := none
      applied := 0 }
  else sc

/-- `ff_sys_kevent` applies the changes it is given, and none when the request is looked at again.
SOURCE: adapter/syscall/ff_socket_ops.c:355-363 -/
def applyChanges (sc : SemSc) : SemSc :=
  { sc with applied := if sc.nchanges = 0 then sc.applied else sc.applied + 1, nchanges := 0 }

/-- `ff_handle_socket_ops`, where the handler answers `result` and `error`; `post` is the `sem_flag` that it
leaves.
SOURCE: adapter/syscall/ff_socket_ops.c:552-618 -/
def handle (sc : SemSc) (result error : ℤ) (post : Bool) : SemSc :=
  if sc.status = .FF_SC_REQ then
    let sc := { sc.applyChanges with result := result, error := error }
    if sc.call.usesSem then
      if post then
        { sc with status := .FF_SC_REP, wait_sem := sc.wait_sem + 1, answer := some result }
      else sc
    else { sc with status := .FF_SC_REP, answer := some result }
  else sc

/-- The thread takes a post. -/
def wake (sc : SemSc) : SemSc :=
  if sc.pc = .waits ∧ 0 < sc.wait_sem then
    { sc with wait_sem := sc.wait_sem - 1, pc := .woken .posted }
  else sc

/-- The wait of the thread is over without a post. -/
def expire (sc : SemSc) (now : ℕ) : SemSc :=
  if sc.pc = .waits ∧ sc.call.timed.isSome ∧ sc.deadline ≤ now then { sc with pc := .woken .timedout } else sc

def interrupt (sc : SemSc) : SemSc :=
  if sc.pc = .waits then { sc with pc := .woken .interrupted } else sc

/-- What the call has in `ret` after its wait.
SOURCE: adapter/syscall/ff_hook_syscall.c:2408-2415, 2722-2729 -/
def ret (sc : SemSc) : SemWaited → ℤ
  | .posted => sc.result
  | .timedout => 0
  | .interrupted => -1

/-- What the call returns to the application, if it does not try again. -/
def returned (sc : SemSc) (w : SemWaited) : Option ℤ :=
  if sc.call.retries (sc.ret w) then none else some (sc.ret w)

/-- The thread takes the lock after its wait, and ends the request.
SOURCE: adapter/syscall/ff_hook_syscall.c:2392-2418, 2709-2733 -/
def finish (sc : SemSc) : SemSc :=
  match sc.pc with
  | .woken _ =>
    { sc with
      status := .FF_SC_IDLE
      need_alarm_sem := if sc.call.timed.isNone then false else sc.need_alarm_sem
      pc := .none }
  | _ => sc

/-- The thread sees the answer that it has spun for.
SOURCE: adapter/syscall/ff_hook_syscall.c:191-196 -/
def reply (sc : SemSc) : SemSc :=
  if sc.pc = .spins ∧ sc.status = .FF_SC_REP then { sc with status := .FF_SC_IDLE, pc := .none } else sc

/-- SOURCE: adapter/syscall/ff_hook_syscall.c:3383-3408 -/
def alarmEventSem (sc : SemSc) : SemSc :=
  if sc.need_alarm_sem then { sc with wait_sem := sc.wait_sem + 1, need_alarm_sem := false } else sc

end SemSc

/-- All contexts of an instance, `sem_flag` of its loop, and the time. -/
structure SemSys where
  sc : ℕ → SemSc := fun _ => {}
  sem_flag : Bool := false
  now : ℕ := 0

inductive SemStep where
  | submit (i : ℕ) (call : SemCall)
  | handle (i : ℕ) (result error : ℤ)
  | wake (i : ℕ)
  | expire (i : ℕ)
  | interrupt (i : ℕ)
  | finish (i : ℕ)
  | reply (i : ℕ)
  | alarm (i : ℕ)
  | tick (ms : ℕ)
deriving DecidableEq

namespace SemSys

def set (s : SemSys) (i : ℕ) (sc : SemSc) : SemSys := { s with sc := Function.update s.sc i sc }

/-- `sem_flag` after the loop has looked at a context: the handlers of `epoll_wait` and `kevent` set it. -/
def flagAfter (s : SemSys) (sc : SemSc) (result : ℤ) : Bool :=
  if sc.status = .FF_SC_REQ ∧ sc.call.usesSem then sc.call.semFlag result else s.sem_flag

def step (s : SemSys) : SemStep → SemSys
  | .submit i call => s.set i ((s.sc i).submit call s.now)
  | .handle i result error =>
    let sem_flag := s.flagAfter (s.sc i) result
    { s.set i ((s.sc i).handle result error sem_flag) with sem_flag := sem_flag }
  | .wake i => s.set i (s.sc i).wake
  | .expire i => s.set i ((s.sc i).expire s.now)
  | .interrupt i => s.set i (s.sc i).interrupt
  | .finish i => s.set i (s.sc i).finish
  | .reply i => s.set i (s.sc i).reply
  | .alarm i => s.set i (s.sc i).alarmEventSem
  | .tick ms => { s with now := s.now + ms }

end SemSys

end FStack.Model
