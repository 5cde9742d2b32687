import Mathlib.Algebra.Order.Ring.Int
import Mathlib.Data.Finset.Card

/-!
# The socket contexts of the adapter

A process of an application sends its requests to an F-Stack instance through a context in the zone of
this instance (`adapter/syscall/ff_so_zone.c`).  `ff_attach_so_context` takes a context that is not in use,
`ff_detach_so_context` gives it back when its last holder is done; a fork makes one holder more.  A process
finds the zone through `ff_so_zone`, and in the `FF_MULTI_SC` build, in which a parent attaches a context for
every worker it is going to fork, through the table `ff_so_zones`.

The operations hold the locks of the zone and the context, so each of them is one step.  Arrays are
functions on all integers; that an index is within `SOCKET_OPS_CONTEXT_MAX_NUM` is a statement of its own.
Who holds a context (`holds`) is not known to the program.
-/

set_option autoImplicit false

namespace FStack.Model

/-- SOURCE: adapter/syscall/ff_socket_ops.h:45-46 -/
def SOCKET_OPS_CONTEXT_MAX_NUM : ℕ := 32

/-- A `struct ff_so_context`: the zone it is in, and `idx`. -/
structure ScPtr where
  zone : ℤ
  idx : ℕ
deriving DecidableEq, Repr

/-- `struct ff_socket_ops_zone`, with `refcount` of its contexts.  Its size is a power of two.
SOURCE: adapter/syscall/ff_socket_ops.h:90-114 -/
structure SoZone where
  count : ℕ
  count_pow : ∃ k, k ≤ 5 ∧ count = 2 ^ k
  free : ℕ
  idx : ℕ
  inuse : ℕ → Bool
  refcount : ℕ → ℕ

namespace SoZone

/-- SOURCE: adapter/syscall/ff_so_zone.c:91-112 -/
def create (k : ℕ) (hk : k ≤ 5) : SoZone where
  count := 2 ^ k
  count_pow := ⟨k, hk, rfl⟩
  free := 2 ^ k
  idx := 0
  inuse _ := false
  refcount _ := 0

/-- The contexts in use. -/
def used (zone : SoZone) : Finset ℕ := (Finset.range zone.count).filter fun i => zone.inuse i = true

/-- The loop of `ff_attach_so_context`: the first context that is not in use, from `idx` on and around.
SOURCE: adapter/syscall/ff_so_zone.c:201-204 -/
def findFree (zone : SoZone) : ℕ → ℕ → Option ℕ
  | 0, _ => none
  | turns + 1, i =>
    let idx := (zone.idx + i) &&& (zone.count - 1)
    if zone.inuse idx = false then some idx else zone.findFree turns (i + 1)

/-- A context is taken from the zone.
SOURCE: adapter/syscall/ff_so_zone.c:195-219 -/
def attach (zone : SoZone) : Option (ℕ × SoZone) :=
  if zone.free = 0 then none
  else
    match zone.findFree zone.count 0 with
    | none => none
    | some idx =>
      some (idx, { zone with
        inuse := Function.update zone.inuse idx true
        refcount := Function.update zone.refcount idx 1
        free := zone.free - 1
        idx := idx + 1 })

/-- A context is given back to the zone.
SOURCE: adapter/syscall/ff_so_zone.c:249-254 -/
def release (zone : SoZone) (idx : ℕ) : SoZone :=
  if zone.inuse idx then
    { zone with
      inuse := Function.update zone.inuse idx false
      free := (zone.free + 1) % 2 ^ 8
      idx := idx }
  else zone

/-- The loop of `ff_handle_each_context`: the contexts it looks at, until it has seen as many as there are
in use.
SOURCE: adapter/syscall/ff_socket_ops.c:691-712 -/
def eachLoop (zone : SoZone) : ℕ → ℕ → ℕ → List ℕ
  | 0, _, _ => []
  | turns + 1, i, nb_handled =>
    if zone.inuse i = false then zone.eachLoop turns (i + 1) nb_handled
    else if nb_handled - 1 = 0 then [i]
    else i :: zone.eachLoop turns (i + 1) (nb_handled - 1)

/-- SOURCE: adapter/syscall/ff_socket_ops.c:684-713 -/
def handleEachContext (zone : SoZone) : List ℕ :=
  let nb_handled := zone.count - zone.free
  if nb_handled = 0 then [] else zone.eachLoop zone.count 0 nb_handled

end SoZone

/-- `ff_multi_sc_type`, without `worker_id`, which nothing reads.
SOURCE: adapter/syscall/ff_hook_syscall.c:235-239 -/
structure MultiSc where
  fd : ℤ := 0
  sc : Option ScPtr := none
deriving DecidableEq, Repr

/-- What a process of an application knows.
SOURCE: adapter/syscall/ff_hook_syscall.c:225-278, ff_so_zone.c:27-30 -/
structure AppProc where
  ff_so_zone : Option ℤ := none
  ff_so_zones : ℤ → Option ℤ := fun _ => none
  sc : Option ScPtr := none
  scs : ℤ → MultiSc := fun _ => {}
  worker_id : ℤ := 0
  current_worker_id : ℤ := 0

/-- The zones of all instances; there are `nb_zones` of them. -/
structure SoZones where
  zone : ℤ → SoZone
  nb_zones : ℤ

namespace SoZones

def Has (zones : SoZones) (idx : ℤ) : Prop := 0 ≤ idx ∧ idx < zones.nb_zones

instance (zones : SoZones) (idx : ℤ) : Decidable (zones.Has idx) :=
  inferInstanceAs (Decidable (_ ∧ _))

def set (zones : SoZones) (idx : ℤ) (zone : SoZone) : SoZones :=
  { zones with zone := Function.update zones.zone idx zone }

/-- The first part of `ff_attach_so_context`: the zone that it uses.
SOURCE: adapter/syscall/ff_so_zone.c:165-190 -/
def findZone (zones : SoZones) (multi : Bool) (p : AppProc) (idx : ℤ) : AppProc :=
  let p := if multi then { p with ff_so_zone := p.ff_so_zones idx } else p
  match p.ff_so_zone with
  | some _ => p
  | none =>
    if zones.Has idx then
      { p with
        ff_so_zone := some idx
        ff_so_zones := if multi then Function.update p.ff_so_zones idx (some idx) else p.ff_so_zones }
    else p

/-- SOURCE: adapter/syscall/ff_so_zone.c:159-225 -/
def ffAttachSoContext (zones : SoZones) (multi : Bool) (p : AppProc) (idx : ℤ) :
    SoZones × AppProc × Option ScPtr :=
  let p := zones.findZone multi p idx
  match p.ff_so_zone with
  | none => (zones, p, none)
  | some z =>
    match (zones.zone z).attach with
    | none => (zones, p, none)
    | some (i, zone) => (zones.set z zone, p, some ⟨z, i⟩)

/-- `ff_detach_so_context`, with the zone that `ff_so_zone` refers to: a context that others hold is only
counted down.
SOURCE: adapter/syscall/ff_so_zone.c:227-264 -/
def ffDetachSoContext (zones : SoZones) (ff_so_zone : Option ℤ) (sc : Option ScPtr) : SoZones :=
  match ff_so_zone, sc with
  | some z, some sc =>
    let own := zones.zone sc.zone
    if 1 < own.refcount sc.idx then
      zones.set sc.zone
        { own with refcount := Function.update own.refcount sc.idx (own.refcount sc.idx - 1) }
    else zones.set z ((zones.zone z).release sc.idx)
  | _, _ => zones

/-- `sc->refcount++` in `ff_hook_fork`. -/
def addRef (zones : SoZones) (sc : ScPtr) : SoZones :=
  let own := zones.zone sc.zone
  zones.set sc.zone
    { own with refcount := Function.update own.refcount sc.idx (own.refcount sc.idx + 1) }

end SoZones

namespace AppProc

/-- `ff_adapter_init` from the attaching on, for the zone `idx`.
SOURCE: adapter/syscall/ff_hook_syscall.c:3331-3348 -/
def ffAdapterInit (p : AppProc) (zones : SoZones) (multi : Bool) (idx : ℤ) : SoZones × AppProc :=
  match zones.ffAttachSoContext multi p idx with
  | (zones, p, none) => (zones, { p with sc := none })
  | (zones, p, some sc) =>
    (zones, { p with
      sc := some sc
      scs := if multi then Function.update p.scs p.worker_id { fd := -1, sc := some sc } else p.scs
      worker_id := p.worker_id + 1 })

/-- What `ff_hook_fork` does before the fork.
SOURCE: adapter/syscall/ff_hook_syscall.c:2467-2471 -/
def beforeFork (p : AppProc) (multi : Bool) : AppProc :=
  if multi then
    { p with sc := (p.scs p.current_worker_id).sc, ff_so_zone := p.ff_so_zones p.current_worker_id }
  else p

/-- The parent after a fork.
SOURCE: adapter/syscall/ff_hook_syscall.c:2479-2488 -/
def afterFork (p : AppProc) (multi : Bool) : AppProc :=
  if multi ∧ p.sc.isSome then { p with current_worker_id := p.current_worker_id + 1 } else p

/-- What `ff_adapter_exit` detaches, with the zones that it uses for it.
SOURCE: adapter/syscall/ff_hook_syscall.c:3166-3195 -/
def exitDetaches (p : AppProc) (multi : Bool) : List (Option ℤ × Option ScPtr) :=
  if multi ∧ p.current_worker_id = p.worker_id then
    (List.range p.worker_id.toNat).map fun i => (p.ff_so_zones i, (p.scs i).sc)
  else [(p.ff_so_zone, p.sc)]

end AppProc

/-- All processes and zones, what the processes that exit still have to detach, and for each process the
contexts that it holds. -/
structure ScSystem where
  zones : SoZones
  procs : ℕ → Option AppProc
  exits : ℕ → List (Option ℤ × Option ScPtr)
  holds : List (ℕ × ScPtr)

/-- What processes do: a program is started with a number in `FF_PROC_ID`, a process attaches a context
of the instance `idx`, forks, and exits, in which it makes one detach after the other. -/
inductive ScStep where
  | start (pid : ℕ) (worker_id : ℤ)
  | attach (pid : ℕ) (idx : ℤ)
  | fork (pid child : ℕ)
  | exit (pid : ℕ)
  | detach (pid : ℕ)
deriving DecidableEq, Repr

namespace ScSystem

def init (k : ℕ) (hk : k ≤ 5) (nb_zones : ℤ) : ScSystem where
  zones := ⟨fun _ => SoZone.create k hk, nb_zones⟩
  procs _ := none
  exits _ := []
  holds := []

/-- The number of a process that is there, or that still detaches contexts. -/
def taken (s : ScSystem) (pid : ℕ) : Bool := (s.procs pid).isSome || !(s.exits pid).isEmpty

/-- A process attaches a context, and then holds it. -/
def attach (multi : Bool) (s : ScSystem) (pid : ℕ) (p : AppProc) (idx : ℤ) : ScSystem :=
  let (zones, p) := p.ffAdapterInit s.zones multi idx
  { s with
    zones := zones
    procs := Function.update s.procs pid (some p)
    holds := (p.sc.map fun sc => (pid, sc)).toList ++ s.holds }

/-- `ff_hook_fork`: the child is a copy of its parent, and a further holder of the context.
SOURCE: adapter/syscall/ff_hook_syscall.c:2461-2531 -/
def fork (multi : Bool) (s : ScSystem) (pid child : ℕ) (p : AppProc) : ScSystem :=
  let p := p.beforeFork multi
  { s with
    zones := match p.sc with | none => s.zones | some sc => s.zones.addRef sc
    procs := Function.update (Function.update s.procs pid (some (p.afterFork multi))) child (some p)
    holds := (p.sc.map fun sc => (child, sc)).toList ++ s.holds }

/-- A process detaches a context, and no longer holds it. -/
def detach (s : ScSystem) (pid : ℕ) (d : Option ℤ × Option ScPtr) : ScSystem :=
  { s with
    zones := s.zones.ffDetachSoContext d.1 d.2
    holds := match d.2 with | none => s.holds | some sc => s.holds.erase (pid, sc) }

/-- A step; a process that is not there does nothing, and a new one gets a number that is not taken. -/
def step (multi : Bool) (s : ScSystem) : ScStep → ScSystem
  | .start pid worker_id =>
    if s.taken pid then s
    else { s with procs := Function.update s.procs pid (some { worker_id := worker_id }) }
  | .attach pid idx =>
    match s.procs pid with
    | none => s
    | some p => s.attach multi pid p idx
  | .fork pid child =>
    match s.procs pid with
    | none => s
    | some p => if s.taken child then s else s.fork multi pid child p
  | .exit pid =>
    match s.procs pid with
    | none => s
    | some p =>
      { s with
        procs := Function.update s.procs pid none
        exits := Function.update s.exits pid (p.exitDetaches multi) }
  | .detach pid =>
    match s.exits pid with
    | [] => s
    | d :: ds => { s.detach pid d with exits := Function.update s.exits pid ds }

end ScSystem

end FStack.Model
