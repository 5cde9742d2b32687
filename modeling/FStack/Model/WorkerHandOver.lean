import FStack.Model.SoContext

/-!
# Contexts that a parent makes for its workers

In the `FF_MULTI_SC` build a parent calls `socket` once for every worker, and each call attaches a context of
its own.  `ff_hook_fork` hands these contexts over to the children, one after the other, and `ff_hook_close`
looks for the context through which a descriptor was made (`adapter/syscall/ff_hook_syscall.c`).

Beside what the parent knows the model keeps the contexts in the order they were made in, each with its
descriptor, and what is still to be handed over and to be closed.  The entries of the tables `scs` and
`ff_so_zones` that a call uses are listed by functions of their own.
-/

set_option autoImplicit false

namespace FStack.Model

namespace AppProc

/-- The zone that the next context of the process is taken from. -/
def nextZone (p : AppProc) (nb_procs : ℤ) : ℤ := p.worker_id.tmod nb_procs

/-- `ff_hook_socket`, where F-Stack answers `ret`.  With no instances the process ends in `worker_id %
nb_procs`, and nothing is attached.
SOURCE: adapter/syscall/ff_hook_syscall.c:379-426 -/
def ffHookSocket (p : AppProc) (zones : SoZones) (nb_procs ret : ℤ) : SoZones × AppProc :=
  if nb_procs = 0 then (zones, { p with sc := none })
  else
    let (zones, p) := p.ffAdapterInit zones true (p.nextZone nb_procs)
    match p.sc with
    | none => (zones, p)
    | some _ =>
      let entry := p.scs (p.worker_id - 1)
      (zones, { p with scs := Function.update p.scs (p.worker_id - 1) { entry with fd := ret } })

/-- The entries of `ff_so_zones` and `scs` that `ff_hook_socket` uses. -/
def socketUses (p : AppProc) (nb_procs : ℤ) : List ℤ := [p.nextZone nb_procs, p.worker_id]

/-- The loop of `ff_hook_close`: the entries of `scs` that it looks at, and the one it finds.
SOURCE: adapter/syscall/ff_hook_syscall.c:1893-1902 -/
def closeLoop (p : AppProc) (fd : ℤ) : ℕ → ℤ → List ℤ × Option ℤ
  | 0, _ => ([], none)
  | turns + 1, i =>
    if (p.scs i).fd = fd then ([i], some i)
    else
      let (looked, found) := p.closeLoop fd turns (i + 1)
      (i :: looked, found)

/-- The search of `ff_hook_close`, which is made when all workers are forked. -/
def closeSearch (p : AppProc) (fd : ℤ) : List ℤ × Option ℤ :=
  if p.current_worker_id = p.worker_id then p.closeLoop fd p.worker_id.toNat 0 else ([], none)

/-- `ff_hook_close` until the request, which is sent to `sc`.
SOURCE: adapter/syscall/ff_hook_syscall.c:1877-1907 -/
def ffHookClose (p : AppProc) (fd : ℤ) : AppProc :=
  match (p.closeSearch fd).2 with
  | none => p
  | some i =>
    { p with
      sc := (p.scs i).sc
      scs := Function.update p.scs i { p.scs i with fd := -1 } }

end AppProc

/-- A parent that makes sockets, and the contexts made so far with their descriptors. -/
structure SocketMaster where
  zones : SoZones
  parent : AppProc
  created : List (ScPtr × ℤ)

namespace SocketMaster

def init (zones : SoZones) (worker_id : ℤ) : SocketMaster where
  zones := zones
  parent := { worker_id := worker_id }
  created := []

def socket (nb_procs : ℤ) (m : SocketMaster) (ret : ℤ) : SocketMaster :=
  let (zones, p) := m.parent.ffHookSocket m.zones nb_procs ret
  { zones := zones
    parent := p
    created := m.created ++ (p.sc.map fun sc => (sc, ret)).toList }

end SocketMaster

/-- A parent that forks its workers: the contexts that no worker has yet, those through which no
descriptor was closed yet, and the descriptors that are open. -/
structure WorkerMaster where
  parent : AppProc
  waiting : List (ScPtr × ℤ)
  unused : List (ScPtr × ℤ)
  unclosed : List ℤ

inductive WorkerStep where
  | fork
  | close (fd : ℤ)
deriving DecidableEq, Repr

namespace WorkerMaster

def start (m : SocketMaster) : WorkerMaster where
  parent := m.parent
  waiting := m.created
  unused := m.created
  unclosed := m.created.map Prod.snd

def step (m : WorkerMaster) : WorkerStep → WorkerMaster
  | .fork => { m with parent := (m.parent.beforeFork true).afterFork true, waiting := m.waiting.tail }
  | .close fd =>
    let p := m.parent.ffHookClose fd
    { m with
      parent := p
      unused := match p.sc with | none => m.unused | some sc => m.unused.erase (sc, fd)
      unclosed := m.unclosed.erase fd }

end WorkerMaster

end FStack.Model
