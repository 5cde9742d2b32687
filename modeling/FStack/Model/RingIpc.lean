import FStack.Model.SoContext

/-!
# Requests through a ring

In the `FF_USE_RING_IPC` build a thread of an application writes its request into its context, puts a pointer
to the context into `req_ring`, and spins on `completion` (`ff_ring_submit_and_wait`).  The F-Stack loop takes
the pointers out in bursts, reads the request from each context, and sets `completion` when the result is there
(`adapter/syscall/ff_ring_ipc.c`, `ff_socket_ops.c`).

Every store and load of a shared field is a step of its own, for the thread and for the loop.  A ring whose
pointers are all to the one context of the thread is the number of these pointers.  `ops` and `args` are what
these fields stand for: a request and its arguments.
-/

set_option autoImplicit false

namespace FStack.Model

/-- SOURCE: adapter/syscall/ff_socket_ops.h:147-149 -/
def FF_RING_SIZE : ℕ := 64

/-- A request of the application, and how long it waits: forever if `timeout_us` is negative. -/
structure RingCall where
  ops : ℕ
  args : ℕ
  timeout_us : ℤ
deriving DecidableEq, Repr

/-- What `struct ff_so_context` has for a request.
SOURCE: adapter/syscall/ff_socket_ops.h:115-142 -/
structure RingSc where
  ops : ℕ := 0
  args : ℕ := 0
  result : ℤ := 0
  error : ℤ := 0
  completion : Bool := false
deriving DecidableEq, Repr

/-- What a thread does next: it stores `args`, `result`, `error` and `completion`, puts the context into the
ring, and then loads `completion` and looks at the clock in turns. -/
inductive SubmitPc where
  | idle
  | args
  | result
  | error
  | completion
  | enqueue
  | load
  | clock
deriving DecidableEq, Repr

/-- What the loop does next: it handles the next of the `left` contexts of its burst, or stores what the
handler answered and sets `completion`. -/
inductive LoopPc where
  | next (left : ℕ)
  | result (left : ℕ) (result error : ℤ)
  | error (left : ℕ) (error : ℤ)
  | complete (left : ℕ)
deriving DecidableEq, Repr

/-- A request that the loop has called the handler for, with the answer. -/
structure RingHandled where
  ops : ℕ
  args : ℕ
  result : ℤ
  error : ℤ
deriving DecidableEq, Repr

def RingHandled.request (h : RingHandled) : ℕ × ℕ := (h.ops, h.args)

/-- The context, the ring, the thread and the loop, and the requests submitted and handled so far. -/
structure RingSys where
  sc : RingSc := {}
  req_ring : ℕ := 0
  app : SubmitPc := .idle
  call : RingCall := ⟨0, 0, 0⟩
  loop : LoopPc := .next 0
  submitted : List (ℕ × ℕ) := []
  handled : List RingHandled := []

/-- The thread begins a request, or goes on with it (the clock may have `expired`); the loop goes on (the
handler may answer `result` and `error`); someone calls `alarm_event_sem`. -/
inductive RingStep where
  | begin (call : RingCall)
  | app (expired : Bool)
  | loop (result error : ℤ)
  | alarm
deriving DecidableEq

namespace RingSys

/-- A step of `ff_ring_submit_and_wait`, and of the stores before it.
SOURCE: adapter/syscall/ff_hook_syscall.c:134-150, 2319-2324, 3419-3478 -/
def appStep (s : RingSys) (expired : Bool) : RingSys :=
  match s.app with
  | .idle => s
  | .args => { s with sc := { s.sc with args := s.call.args }, app := .result }
  | .result => { s with sc := { s.sc with result := 0 }, app := .error }
  | .error => { s with sc := { s.sc with error := 0 }, app := .completion }
  | .completion => { s with sc := { s.sc with completion := false }, app := .enqueue }
  | .enqueue =>
    -- a ring of `FF_RING_SIZE` has one entry less to use
    if s.req_ring < FF_RING_SIZE - 1 then
      { s with
        req_ring := s.req_ring + 1
        app := .load
        submitted := s.submitted ++ [(s.call.ops, s.call.args)] }
    else s
  | .load => if s.sc.completion then { s with app := .idle } else { s with app := .clock }
  | .clock =>
    if 0 ≤ s.call.timeout_us ∧ expired then { s with app := .idle } else { s with app := .load }

/-- The contexts that the loop takes out of the ring at once, into `objs`. -/
def burst (s : RingSys) : ℕ := min s.req_ring FF_RING_SIZE

/-- A step of `ff_handle_each_context`, where the handler answers `result` and `error`.
SOURCE: adapter/syscall/ff_socket_ops.c:524-549, 654-662, ff_ring_ipc.c:50-75 -/
def loopStep (s : RingSys) (result error : ℤ) : RingSys :=
  match s.loop with
  | .next 0 => { s with req_ring := s.req_ring - s.burst, loop := .next s.burst }
  | .next (left + 1) =>
    { s with
      loop := .result left result error
      handled := s.handled ++ [⟨s.sc.ops, s.sc.args, result, error⟩] }
  | .result left result error =>
    { s with sc := { s.sc with result := result }, loop := .error left error }
  | .error left error => { s with sc := { s.sc with error := error }, loop := .complete left }
  | .complete left => { s with sc := { s.sc with completion := true }, loop := .next left }

/-- A step; a thread that has not finished its request does not begin another one.
SOURCE: adapter/syscall/ff_ring_ipc.c:137-158 for `alarm` -/
def step (s : RingSys) : RingStep → RingSys
  | .begin call =>
    if s.app = .idle then { s with sc := { s.sc with ops := call.ops }, app := .args, call := call } else s
  | .app expired => s.appStep expired
  | .loop result error => s.loopStep result error
  | .alarm => { s with sc := { s.sc with completion := true } }

end RingSys

end FStack.Model
