import Mathlib.Data.Nat.Notation
import Mathlib.Data.Int.Notation

/-!
# The handshake of `fork`

`ff_hook_fork` (`adapter/syscall/ff_hook_syscall.c`), built with `FF_USE_THREAD_STRUCT_HANDLE`, after
`ff_linux_fork` has made a child.  The context of the parent is in shared memory, and the parent holds its lock.
The parent counts the child and waits in a loop for `forking` to be cleared; the child attaches a context of its
own, asks F-Stack to duplicate the descriptors, and clears `forking`.

Each access to the context of the parent is a step, of the one process or of the other.
-/

set_option autoImplicit false

namespace FStack.Model

/-- Where the parent is.
SOURCE: adapter/syscall/ff_hook_syscall.c:2481-2492, 2525-2527 -/
inductive ForkParent where
  | forked
  | counted
  | waiting
  | left
  | unlocked
deriving DecidableEq, Repr

/-- Where the child is; `initialised` says whether it has a context.
SOURCE: adapter/syscall/ff_hook_syscall.c:2494-2522 -/
inductive ForkChild where
  | forked
  | initialised (attached : Bool)
  | requested
  | replied
  | done
  | returned
  | crashed
deriving DecidableEq, Repr

/-- The context of the parent, and where the two processes are; `handle` is the `ff_thread_handle` of the
child's context. -/
structure ForkState where
  refcount : ℤ
  forking : Bool
  lock : Bool
  parent : ForkParent
  child : ForkChild
  handle : Option ℕ
deriving DecidableEq, Repr

/-- A step of the parent, or of the child with what it meets: whether there is a context, whether there is memory
for the request, and what F-Stack answers. -/
inductive ForkStep where
  | parent
  | child (context memory : Bool) (ret : ℤ) (child_thread_handle : ℕ)
deriving DecidableEq, Repr

namespace ForkState

/-- When `ff_linux_fork` has returned in both. -/
def init (refcount : ℤ) : ForkState := ⟨refcount, false, true, .forked, .forked, none⟩

/-- SOURCE: adapter/syscall/ff_hook_syscall.c:2481-2492, 2525-2527 -/
def parentStep (s : ForkState) : ForkState :=
  match s.parent with
  | .forked => { s with refcount := s.refcount + 1, parent := .counted }
  | .counted => { s with forking := true, parent := .waiting }
  | .waiting => if s.forking then s else { s with parent := .left }
  | .left => { s with lock := false, parent := .unlocked }
  | .unlocked => s

/-- A child that has no context goes on until `SYSCALL` reads it, and one that has no memory for the request
returns.
SOURCE: adapter/syscall/ff_hook_syscall.c:2501-2520, 3370-3382 -/
def childStep (s : ForkState) (context memory : Bool) (ret : ℤ) (child_thread_handle : ℕ) : ForkState :=
  match s.child with
  | .forked => { s with child := .initialised context }
  | .initialised attached =>
    if memory = false then { s with child := .returned }
    else if attached then { s with child := .requested }
    else { s with child := .crashed }
  | .requested =>
    { s with child := .replied, handle := if ret = 0 then some child_thread_handle else s.handle }
  | .replied => { s with child := .done, forking := false }
  | _ => s

def step (s : ForkState) : ForkStep → ForkState
  | .parent => s.parentStep
  | .child context memory ret child_thread_handle => s.childStep context memory ret child_thread_handle

end ForkState

end FStack.Model
