import Mathlib.Algebra.Order.Ring.Int

/-!
# Deadlines of the preloaded calls

`ff_hook_epoll_wait` and `kevent` (`adapter/syscall/ff_hook_syscall.c`) wait for F-Stack with `sem_timedwait`,
which takes an absolute time.  They compute it from the clock and the timeout; a sum of seconds is a `time_t`
of 64 bits.
-/

set_option autoImplicit false

namespace FStack.Model

structure Timespec where
  tv_sec : ℤ
  tv_nsec : ℤ
deriving DecidableEq, Repr

/-- SOURCE: adapter/syscall/ff_hook_syscall.c:32 -/
def NS_PER_SECOND : ℤ := 1000000000

def Timespec.Normalised (t : Timespec) : Prop := 0 ≤ t.tv_nsec ∧ t.tv_nsec < NS_PER_SECOND

/-- What `clock_gettime` reads from `CLOCK_REALTIME`. -/
structure ClockReading where
  time : Timespec
  sec : 0 ≤ time.tv_sec ∧ time.tv_sec < 2 ^ 63
  nsec : time.Normalised

/-- A timeout of `epoll_wait` that is positive. -/
structure EpollTimeout where
  ms : ℤ
  pos : 0 < ms
  lt : ms < 2 ^ 31

/-- A timeout of `kevent`. -/
structure KeventTimeout where
  time : Timespec
  sec : -2 ^ 63 ≤ time.tv_sec ∧ time.tv_sec < 2 ^ 63
  nsec : time.Normalised

/-- What is kept of a sum of seconds. -/
def timeT (sec : ℤ) : ℤ := sec.bmod (2 ^ 64)

/-- The carry, and the test that follows it; `none` is `EINVAL`.
SOURCE: adapter/syscall/ff_hook_syscall.c:2283-2292, 2693-2703 -/
def absTimeout (t : Timespec) : Option Timespec :=
  let t :=
    if NS_PER_SECOND < t.tv_nsec then ⟨timeT (t.tv_sec + 1), t.tv_nsec - NS_PER_SECOND⟩ else t
  if t.tv_sec < 0 ∨ t.tv_nsec < 0 then none else some t

/-- The deadline of `ff_hook_epoll_wait`, for a `timeout` in milliseconds that is positive.
SOURCE: adapter/syscall/ff_hook_syscall.c:2277-2294 -/
def epollDeadline (clock : Timespec) (timeout : ℤ) : Option Timespec :=
  absTimeout
    { tv_sec := timeT (clock.tv_sec + timeout.tdiv 1000)
      tv_nsec := clock.tv_nsec + timeout.tmod 1000 * 1000 * 1000 }

/-- The deadline of `kevent`.
SOURCE: adapter/syscall/ff_hook_syscall.c:2687-2707 -/
def keventDeadline (clock timeout : Timespec) : Option Timespec :=
  absTimeout
    { tv_sec := timeT (clock.tv_sec + timeout.tv_sec)
      tv_nsec := clock.tv_nsec + timeout.tv_nsec }

/-! ## The waiting of `ff_hook_epoll_wait` -/

/-- What `sem_wait` or `sem_timedwait` answers. -/
inductive SemAnswer where
  | posted
  | timedOut
  | failed
deriving DecidableEq, Repr

/-- What a round of `RETRY` meets: the answer of the semaphore, `sc->result`, what `ff_linux_epoll_wait` has
found, and the clock after the wait. -/
structure EpollRound where
  sem : SemAnswer
  result : ℤ
  kernel_ret : ℤ
  clock : Timespec

/-- What a round waits on. -/
inductive SemWait where
  | untimed
  | timed (abs_timeout : Timespec)
deriving DecidableEq, Repr

/-- `ret` at the end of a round.
SOURCE: adapter/syscall/ff_hook_syscall.c:2407-2437 -/
def EpollRound.ret (r : EpollRound) (maxevents : ℤ) : ℤ :=
  let ret :=
    match r.sem with
    | .posted => r.result
    | .timedOut => 0
    | .failed => -1
  let ret := if 0 < ret then min ret maxevents else ret
  if 0 < r.kernel_ret then (if 0 < ret then ret + r.kernel_ret else r.kernel_ret) else ret

/-- From `RETRY` on: what is waited on, as far as there are rounds.
SOURCE: adapter/syscall/ff_hook_syscall.c:2301-2445 -/
def epollWaits (maxevents timeout : ℤ) : Timespec → List EpollRound → List SemWait
  | _, [] => []
  | abs_timeout, r :: rounds =>
    let wait := if 0 < timeout then .timed abs_timeout else .untimed
    let abs_timeout := if 0 < timeout then r.clock else abs_timeout
    if timeout ≤ 0 ∧ r.ret maxevents = 0 then wait :: epollWaits maxevents timeout abs_timeout rounds
    else [wait]

/-- What `ff_hook_epoll_wait` waits on, from the reading `clock` on; `abs_timeout` is what the stack holds
there before it is set.
SOURCE: adapter/syscall/ff_hook_syscall.c:2277-2445 -/
def hookEpollWaits (maxevents timeout : ℤ) (clock abs_timeout : Timespec) (rounds : List EpollRound) :
    List SemWait :=
  if 0 < timeout then
    match epollDeadline clock timeout with
    | none => []
    | some abs_timeout => epollWaits maxevents timeout abs_timeout rounds
  else epollWaits maxevents timeout abs_timeout rounds

end FStack.Model
