import FStack.Model.ZeroCopy

/-!
# Initialization of the preload library

`ff_adapter_init` (`adapter/syscall/ff_hook_syscall.c`) sets the process up, and attaches a context of F-Stack to
the application or thread that calls it.  It holds `worker_id_lock` from its beginning until the context is
attached.

A call meets what the system, the environment and F-Stack answer.  The CPU mask and the number of F-Stack
processes, which only choose the zone in which a context is looked for, are left out.
-/

set_option autoImplicit false

namespace FStack.Model

/-- How the library was built: `FF_MULTI_SC`, `FF_THREAD_SOCKET` and `FF_USE_THREAD_STRUCT_HANDLE`. -/
structure AdapterBuild where
  multi_sc : Bool
  thread_socket : Bool
  thread_struct_handle : Bool

/-- The globals; `inited` by threads, and `attached` counts the contexts that were attached. -/
structure AdapterState where
  inited : ℕ → Bool
  proc_inited : Bool
  worker_id_lock : Bool
  worker_id : ℤ
  attached : ℕ

/-- A call: its thread, whether `getrlimit` succeeds, `FF_PROC_ID`, what `rte_eal_init` returns, whether there is
a context, and whether there is memory for the request to register and F-Stack accepts it. -/
structure AdapterCall where
  thread : ℕ
  getrlimit : Bool
  proc_id : Option ℤ
  eal : ℤ
  context : Bool
  memory : Bool
  registered : Bool

namespace AdapterState

/-- Before the first call. -/
def init : AdapterState := ⟨fun _ => false, false, false, 0, 0⟩

/-- `worker_id` after the environment was read.
SOURCE: adapter/syscall/ff_hook_syscall.c:3280-3297 -/
def readWorkerId (s : AdapterState) (proc_id : Option ℤ) : ℤ :=
  match proc_id with
  | none => s.worker_id
  | some id => if int32 id = -1 then 0 else int32 id

/-- `inited = 1`, in the thread or in the process. -/
def setInited (b : AdapterBuild) (s : AdapterState) (thread : ℕ) : ℕ → Bool :=
  if b.thread_socket then Function.update s.inited thread true else fun _ => true

/-- From the attachment of a context on, with the lock taken; what is returned.
SOURCE: adapter/syscall/ff_hook_syscall.c:3331-3367 -/
def attachContext (b : AdapterBuild) (s : AdapterState) (c : AdapterCall) : AdapterState × ℤ :=
  if c.context then
    ({ s with
        inited := s.setInited b c.thread
        worker_id_lock := false
        worker_id := int32 (s.worker_id + 1)
        attached := s.attached + 1 },
      if b.thread_struct_handle ∧ ¬(c.memory ∧ c.registered) then -1 else 0)
  else (s, -1)

/-- `ff_adapter_init`; `none` when it waits for the lock and nobody will release it.
SOURCE: adapter/syscall/ff_hook_syscall.c:3197-3368 -/
def ffAdapterInit (b : AdapterBuild) (s : AdapterState) (c : AdapterCall) :
    AdapterState × Option ℤ :=
  if ¬b.multi_sc ∧ s.inited c.thread then (s, some 0)
  else if s.proc_inited = false then
    -- `rte_spinlock_init` frees the lock, whoever has it
    let s := { s with worker_id_lock := true }
    if c.getrlimit = false then (s, some (-1))
    else
      let s := { s with worker_id := s.readWorkerId c.proc_id }
      if c.eal < 0 then (s, some c.eal)
      else
        let (s, ret) := { s with proc_inited := true }.attachContext b c
        (s, some ret)
  else if s.worker_id_lock then (s, none)
  else
    let (s, ret) := { s with worker_id_lock := true }.attachContext b c
    (s, some ret)

def step (b : AdapterBuild) (s : AdapterState) (c : AdapterCall) : AdapterState :=
  (s.ffAdapterInit b c).1

end AdapterState

end FStack.Model
