import FStack.Model.Epoll
import FStack.Model.FdMap
import FStack.Prelude.Cursor

/-!
# `ff_kevent` with a kernel side

With `FF_KERNEL_COEXIST`, a call of `ff_kevent` (`lib/ff_syscall_wrapper.c`) is about two kernels.  The
changes whose descriptor has a kernel side are made on the host epoll that is paired with the kqueue;
those whose descriptor is not of the kernel alone are passed on to the F-Stack kqueue.  Then the host
epoll is polled, and what the F-Stack kqueue reports is stored behind the host's events.

The host kernel is an input: which number `epoll_create1` finds, whether `epoll_ctl` refuses, and what
`epoll_wait` reports.  Of the F-Stack kqueue, `kqueue_kevent` is followed as it is written; its states
are of any type, with what registering a change and taking a knote from the queue do to them.
-/

set_option autoImplicit false

namespace FStack.Model

open FStack.Prelude

def EVFILT_READ : ℤ := -1

def EVFILT_WRITE : ℤ := -2

def EvFilter.number : EvFilter → ℤ
  | .read => EVFILT_READ
  | .write => EVFILT_WRITE

/-- The kevent with its filter as a number. -/
def Kevent.raw (kev : Kevent) : RawKevent := { kev with filter := kev.filter.number }

/-- `(int)kev->ident`. -/
def fdOf (ident : BitVec 64) : ℤ := (ident.setWidth 32).toInt

/-! ## The host epoll -/

/-- `struct epoll_event` with `data.fd`: a registration, or a report. -/
structure HostEvent where
  events : BitVec 32
  fd : ℤ
deriving DecidableEq, Repr

/-- What is registered in a host epoll, by descriptor of the host. -/
abbrev HostInterest := ℤ → Option HostEvent

/-- Why the host refuses: an error of the descriptor, or of a new registration. -/
structure HostCtlEnv where
  fd : Option Errno := none
  insert : Option Errno := none

/-- `epoll_ctl` of the host. -/
def hostEpollCtl (env : HostCtlEnv) (interest : HostInterest) (op : EpollCtlOp) (hfd : ℤ)
    (ev : HostEvent) : HostInterest × Option Errno :=
  match env.fd with
  | some e => (interest, some e)
  | none =>
    match op, interest hfd with
    | .add, some _ => (interest, some .EEXIST)
    | .add, none =>
      match env.insert with
      | some e => (interest, some e)
      | none => (Function.update interest hfd (some ev), none)
    | .mod, some _ => (Function.update interest hfd (some ev), none)
    | .del, some _ => (Function.update interest hfd none, none)
    | .mod, none => (interest, some .ENOENT)
    | .del, none => (interest, some .ENOENT)
    | .other, _ => (interest, some .EINVAL)

/-- `ff_host_kqueue_ctl`.
SOURCE: lib/ff_host_interface.c:423-436 -/
def ffHostKqueueCtl (env : HostCtlEnv) (interest : HostInterest) (del : Bool) (hfd app_fd : ℤ)
    (want_write : Bool) : HostInterest :=
  let ev : HostEvent := ⟨if want_write then EPOLLOUT else EPOLLIN, app_fd⟩
  if del then (hostEpollCtl env interest .del hfd ev).1
  else
    match hostEpollCtl env interest .add hfd ev with
    | (interest', some .EEXIST) => (hostEpollCtl env interest' .mod hfd ev).1
    | (interest', _) => interest'

/-- `ff_host_kqueue_poll`: a triple for each event, of the descriptor, whether it can be written, and
whether it is at its end.  `ready` is what `epoll_wait` has, if it does not fail.
SOURCE: lib/ff_host_interface.c:442-458 -/
def ffHostKqueuePoll (ready : Option (List HostEvent)) (maxevents : ℕ) : List (ℤ × Bool × Bool) :=
  ((ready.getD []).take maxevents).map fun ev =>
    (ev.fd, hasBit ev.events EPOLLOUT, hasBit ev.events (EPOLLHUP ||| EPOLLERR))

/-- `ff_kevent_host_wait`: the kevents of the triples.
SOURCE: lib/ff_syscall_wrapper.c:2078-2091 -/
def ffKeventHostWait (ready : Option (List HostEvent)) (nevents : ℕ) : List RawKevent :=
  (ffHostKqueuePoll ready nevents).map fun (fd, is_write, is_eof) =>
    { ident := BitVec.ofInt 64 fd
      filter := if is_write then EVFILT_WRITE else EVFILT_READ
      flags := { EV_EOF := is_eof }
      data := 1 }

/-! ## Changes -/

/-- The descriptors, and the registrations of the host epolls. -/
structure CoexistState where
  fds : FdState
  interest : ℤ → HostInterest

/-- `ff_epoll_host_ep` without `create`.
SOURCE: lib/ff_epoll.c:43-52, 64 -/
def hostEpOf (st : FdState) (kq : ℤ) : Option ℤ :=
  (findPair st kq).map fun i => (st.epoll_pairs i).host_ep

/-- `ff_epoll_host_ep` with `create`: a new host epoll has no registrations.
SOURCE: lib/ff_epoll.c:43-65 -/
def CoexistState.createHostEp (st : CoexistState) (kq : ℤ) (n : Option ℤ) : CoexistState :=
  match hostEpOf st.fds kq with
  | some _ => st
  | none =>
    let fds := ffEpollHostEp st.fds kq n
    match hostEpOf fds kq with
    | some ep => ⟨fds, Function.update st.interest ep fun _ => none⟩
    | none => ⟨fds, st.interest⟩

/-- The host's descriptor of a descriptor with a kernel side.
SOURCE: lib/ff_syscall_wrapper.c:2055-2062 -/
def hostFdOf (st : FdState) (fd : ℤ) : Option ℤ :=
  if ffIsKernelFd fd then some (ffKernelFdReal fd)
  else if 0 < ffNativeMapGet st fd then some (ffNativeMapGet st fd)
  else none

/-- What a change meets in the host: the number that `epoll_create1` finds, and why `epoll_ctl`
refuses. -/
structure HostEnv where
  create : Option ℤ := none
  ctl : HostCtlEnv := {}

/-- The registration is changed, if the kqueue has a host epoll.
SOURCE: lib/ff_syscall_wrapper.c:2071-2074 -/
def CoexistState.kqueueCtl (st : CoexistState) (kq : ℤ) (env : HostCtlEnv) (del : Bool)
    (hfd app_fd : ℤ) (want_write : Bool) : CoexistState :=
  match hostEpOf st.fds kq with
  | none => st
  | some ep =>
    { st with
      interest := Function.update st.interest ep
        (ffHostKqueueCtl env (st.interest ep) del hfd app_fd want_write) }

/-- `ff_kevent_host_change`, with whether the change is one of a descriptor with a kernel side.
SOURCE: lib/ff_syscall_wrapper.c:2050-2076 -/
def ffKeventHostChange (st : CoexistState) (kq : ℤ) (kev : RawKevent) (env : HostEnv) :
    CoexistState × Bool :=
  match hostFdOf st.fds (fdOf kev.ident) with
  | none => (st, false)
  | some hfd =>
    if kev.flags.EV_DELETE then
      (st.kqueueCtl kq env.ctl true hfd (fdOf kev.ident) (kev.filter = EVFILT_WRITE), true)
    else if kev.flags.EV_ADD || kev.flags.EV_ENABLE then
      ((st.createHostEp kq env.create).kqueueCtl kq env.ctl false hfd (fdOf kev.ident)
        (kev.filter = EVFILT_WRITE), true)
    else (st, true)

/-- The loop over the changelist: the state after it, and `fbsd_changes`.
SOURCE: lib/ff_syscall_wrapper.c:2103-2108 -/
def keventChanges (kq : ℤ) : CoexistState → List (RawKevent × HostEnv) →
    CoexistState × List RawKevent
  | st, [] => (st, [])
  | st, (kev, env) :: rest =>
    let (st', handled) := ffKeventHostChange st kq kev env
    let (st'', fbsd_changes) := keventChanges kq st' rest
    (st'',
      if !handled || 0 < ffNativeMapGet st'.fds (fdOf kev.ident) then kev :: fbsd_changes
      else fbsd_changes)

/-! ## The F-Stack kqueue -/

/-- A kqueue, as `kqueue_kevent` uses it: `register` is `kqueue_register` with its error number, `queue`
are the knotes that are queued when a scan begins, and `take` is what becomes of the first of them. -/
structure KqueueOps (K N : Type) where
  register : K → RawKevent → K × ℕ
  queue : K → List N
  take : K → N → K × Option RawKevent

/-- `kevp->flags &= ~EV_SYSFLAGS`. -/
def RawKevent.withoutSys (kev : RawKevent) : RawKevent :=
  { kev with flags := { kev.flags with EV_EOF := false, EV_ERROR := false } }

/-- The kevent that reports what became of a change.
SOURCE: freebsd/kern/kern_event.c:1446-1447 -/
def changeReport (kev : RawKevent) (error : ℕ) : RawKevent :=
  { kev with flags := { EV_ERROR := true }, data := error }

/-- How the loop over the changes ends: with the values of its variables, and the value that
`kqueue_kevent` returns if the loop ends there. -/
structure ChangeLoop (K : Type) where
  kq : K
  nevents : ℤ
  nerrors : ℕ
  arg : Cursor RawKevent
  returns : Option ℕ

section Kqueue

variable {K N : Type} (q : KqueueOps K N)

/-- The loop of `kqueue_kevent` over the changes.
SOURCE: freebsd/kern/kern_event.c:1429-1456 -/
def changeLoop (kq : K) (nevents : ℤ) (nerrors : ℕ) (arg : Cursor RawKevent) :
    List RawKevent → ChangeLoop K
  | [] => ⟨kq, nevents, nerrors, arg, none⟩
  | kev :: rest =>
    if kev.filter = 0 then changeLoop kq nevents nerrors arg rest
    else
      let kev := kev.withoutSys
      let r := q.register kq kev
      if r.2 ≠ 0 ∨ kev.flags.EV_RECEIPT then
        if nevents = 0 then ⟨r.1, nevents, nerrors, arg, some r.2⟩
        else changeLoop r.1 (nevents - 1) (nerrors + 1) (arg.put [changeReport kev r.2]) rest
      else changeLoop r.1 nevents nerrors arg rest

/-- The loop of `kqueue_scan`, for at most `count` events.
SOURCE: freebsd/kern/kern_event.c:2083-2205 -/
def keventScanLoop : ℕ → K → List N → K × List RawKevent
  | 0, kq, _ => (kq, [])
  | _ + 1, kq, [] => (kq, [])
  | count + 1, kq, kn :: rest =>
    match q.take kq kn with
    | (kq', none) => keventScanLoop (count + 1) kq' rest
    | (kq', some kev) =>
      let (kq'', kevs) := keventScanLoop count kq' rest
      (kq'', kev :: kevs)

/-- What a call leaves behind: the value returned, the kqueue, `td_retval[0]` and the event list. -/
structure DoEach (K : Type) where
  rc : ℤ
  kq : K
  td_retval : ℤ
  arg : Cursor RawKevent

def Errno.number : Errno → ℕ
  | .ENOENT => 2
  | .EBADF => 9
  | .ENOMEM => 12
  | .EEXIST => 17
  | .EINVAL => 22
  | .other n => n

/-- `kqueue_scan` without waiting; `rc` is its error number.
SOURCE: freebsd/kern/kern_event.c:2017-2216 -/
def keventScan (kq : K) (maxevents : ℤ) (arg : Cursor RawKevent) : DoEach K :=
  if maxevents = 0 then ⟨0, kq, 0, arg⟩
  else if maxevents < 0 then ⟨Errno.EINVAL.number, kq, 0, arg⟩
  else
    let (kq', kevs) := keventScanLoop q maxevents.toNat kq (q.queue kq)
    ⟨0, kq', kevs.length, arg.put kevs⟩

/-- `kqueue_kevent`; `rc` is its error number.  Where the loop over the changes ends it, `td_retval[0]`
is what it was.
SOURCE: freebsd/kern/kern_event.c:1418-1463 -/
def kqueueKevent (kq : K) (td_retval : ℤ) (changes : List RawKevent) (nevents : ℤ)
    (arg : Cursor RawKevent) : DoEach K :=
  let l := changeLoop q kq nevents 0 arg changes
  match l.returns with
  | some error => ⟨error, l.kq, td_retval, l.arg⟩
  | none =>
    if l.nerrors ≠ 0 then ⟨0, l.kq, l.nerrors, l.arg⟩
    else keventScan q l.kq l.nevents l.arg

/-- `ff_kevent_do_each` without a function for the events, on a kqueue.
SOURCE: lib/ff_syscall_wrapper.c:2002-2037, freebsd/kern/kern_event.c:1398-1416 -/
def ffKeventDoEach (kq : K) (td_retval : ℤ) (changes : List RawKevent) (mem : ℕ → RawKevent)
    (pos : ℕ) (nevents : ℤ) : DoEach K :=
  let r := kqueueKevent q kq td_retval changes nevents (.start mem pos)
  { r with rc := if r.rc ≠ 0 then -1 else r.td_retval }

/-! ## The call -/

/-- The arguments of `ff_kevent`, with what the host answers.  `eventlist` is what the array of the
caller holds, if there is one; `ready` is what the host epoll, if there is one, has to report. -/
structure KeventCall where
  kq : ℤ
  changelist : List (RawKevent × HostEnv)
  eventlist : Option (ℕ → RawKevent)
  nevents : ℤ
  ready : Option (List HostEvent)

/-- What a call does: the value returned, the event list, the changes that the F-Stack kqueue is given,
and the events of the two kernels that the value counts. -/
structure KeventResult (K : Type) where
  ret : ℤ
  st : CoexistState
  kq : K
  eventlist : ℕ → RawKevent
  submitted : List RawKevent
  host : List RawKevent
  fstack : List RawKevent

/-- The host epoll that the call polls.
SOURCE: lib/ff_syscall_wrapper.c:2110-2112 -/
def polledHostEp (st : CoexistState) (c : KeventCall) : Option ℤ :=
  if c.eventlist.isSome ∧ 0 < c.nevents then hostEpOf st.fds c.kq else none

/-- The host's events that the call stores.
SOURCE: lib/ff_syscall_wrapper.c:2112-2113 -/
def polledEvents (st : CoexistState) (c : KeventCall) : List RawKevent :=
  match polledHostEp st c with
  | some _ => ffKeventHostWait c.ready c.nevents.toNat
  | none => []

/-- `ff_kevent` with `kernel_coexist` set.
SOURCE: lib/ff_syscall_wrapper.c:2094-2125 -/
def ffKevent (st : CoexistState) (kq : K) (td_retval : ℤ) (c : KeventCall) : KeventResult K :=
  let (st, fbsd_changes) := keventChanges c.kq st c.changelist
  let host := polledEvents st c
  let kn := host.length
  let mem := writeAt (c.eventlist.getD fun _ => ⟨0, 0, {}, 0, 0, 0⟩) 0 host
  if (polledHostEp st c).isSome ∧ c.nevents ≤ kn then ⟨kn, st, kq, mem, [], host, []⟩
  else
    let r := ffKeventDoEach q kq td_retval fbsd_changes mem kn
      (if c.eventlist.isSome then c.nevents - kn else 0)
    if r.rc < 0 then ⟨if 0 < kn then kn else -1, st, r.kq, r.arg.mem, fbsd_changes, host, []⟩
    else ⟨kn + r.rc, st, r.kq, r.arg.mem, fbsd_changes, host, r.arg.written⟩

end Kqueue

end FStack.Model
