import FStack.Model.MicroThread
import FStack.Model.ZeroCopy

/-!
# The thread pool

`ThreadPool` (`adapter/micro_thread/micro_thread.cpp`) on its own: the queue of free threads, its two counters, and
the size that decides when a thread that comes back is one too many.  What the code gets from outside is an
argument: whether a new thread gets its stack in `Initial`.  `ASSERT` is defined as nothing.
-/

set_option autoImplicit false

namespace FStack.Model

/-- `default_thread_num`, a static `unsigned int`, is a field here.  Threads `next, next + 1, …` have not been made
yet.
SOURCE: micro_thread.h:363-394 -/
structure ThreadPool where
  freelist : List ThreadId
  total_num : ℤ
  use_num : ℤ
  max_num : ℤ
  default_thread_num : ℕ
  next : ThreadId
deriving DecidableEq, Repr

namespace ThreadPool

/-- The loop of `InitialPool`, with what `Initial` says in each round.
SOURCE: micro_thread.cpp:386-397 -/
def initialThreads : List Bool → ThreadPool → ThreadPool
  | [], s => s
  | true :: rounds, s => initialThreads rounds { s with freelist := s.freelist ++ [s.next], next := s.next + 1 }
  | false :: rounds, s => initialThreads rounds s

/-- `InitialPool` of a pool that is new.
SOURCE: micro_thread.cpp:383-410 -/
def initialPool (default_thread_num : ℕ) (max_num : ℤ) (rounds : List Bool) : ThreadPool × Bool :=
  let s := initialThreads rounds ⟨[], 0, 0, 0, default_thread_num, 0⟩
  let s := { s with total_num := int32 s.freelist.length, max_num := max_num, use_num := 0 }
  (s, if s.total_num ≤ 0 then false else true)

/-- SOURCE: micro_thread.cpp:463-468 -/
def growDefault (s : ThreadPool) : ThreadPool :=
  if int32 s.default_thread_num < s.use_num ∧ int32 (int32 s.default_thread_num * 2) < s.max_num then
    { s with default_thread_num := s.default_thread_num * 2 % 2 ^ 32 }
  else s

/-- `AllocThread`; `initial` says whether a new thread gets its stack.
SOURCE: micro_thread.cpp:431-474 -/
def allocThread (s : ThreadPool) (initial : Bool) : ThreadPool × Option ThreadId :=
  match s.freelist with
  | thread :: rest => ({ s with freelist := rest, use_num := s.use_num + 1 }, some thread)
  | [] =>
    if s.max_num ≤ s.total_num then (s, none)
    else if initial = false then (s, none)
    else
      (growDefault { s with total_num := s.total_num + 1, use_num := s.use_num + 1, next := s.next + 1 },
        some s.next)

/-- SOURCE: micro_thread.cpp:493-496 -/
def shrinkDefault (s : ThreadPool) : ThreadPool :=
  if DEFAULT_THREAD_NUM ≤ s.default_thread_num / 2 then
    { s with default_thread_num := s.default_thread_num / 2 }
  else s

/-- `FreeThread`, and the thread that it destroys.
SOURCE: micro_thread.cpp:476-498 -/
def freeThread (s : ThreadPool) (thread : ThreadId) : ThreadPool × Option ThreadId :=
  let s := { s with use_num := s.use_num - 1, freelist := s.freelist ++ [thread] }
  let free_num := s.freelist.length % 2 ^ 32
  if s.default_thread_num < free_num ∧ 1 < free_num then
    match s.freelist with
    | front :: rest => (shrinkDefault { s with freelist := rest, total_num := s.total_num - 1 }, some front)
    | [] => (s, none)
  else (s, none)

end ThreadPool

/-- A call of the pool.  `SetDefaultThreadNum` can be called at any time. -/
inductive PoolCall where
  | allocThread (initial : Bool)
  | freeThread (thread : ThreadId)
  | setDefaultThreadNum (num : ℕ)
deriving DecidableEq, Repr

/-- The pool, and the threads that its callers have. -/
structure PoolState where
  pool : ThreadPool
  used : List ThreadId
deriving DecidableEq, Repr

namespace PoolState

/-- A thread is freed by a caller that has it; `num` is an `unsigned int`. -/
def step (s : PoolState) : PoolCall → PoolState
  | .allocThread initial =>
    match s.pool.allocThread initial with
    | (pool, some thread) => ⟨pool, thread :: s.used⟩
    | (pool, none) => ⟨pool, s.used⟩
  | .freeThread thread =>
    if thread ∈ s.used then ⟨(s.pool.freeThread thread).1, s.used.erase thread⟩ else s
  | .setDefaultThreadNum num => { s with pool := { s.pool with default_thread_num := num % 2 ^ 32 } }

end PoolState

end FStack.Model
