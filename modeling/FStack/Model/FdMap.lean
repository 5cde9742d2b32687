import Mathlib.Algebra.Order.Ring.Int

/-!
# Descriptors with a kernel side

With `FF_KERNEL_COEXIST`, a descriptor of the F-Stack side can have a descriptor of the host kernel
beside it: `ff_native_fd_map` (`lib/ff_host_interface.c`) has the host socket of a dual-stack socket,
and `ff_epoll_pairs` (`lib/ff_epoll.c`) the host epoll of a kqueue.  Both are keyed by descriptor
numbers.  Numbers from `FF_KERNEL_FD_BASE` on stand for host descriptors themselves.

The state has the two descriptor tables, each from numbers to open files, and the two maps.  The calls
of `lib/ff_syscall_wrapper.c` that open, duplicate or close a number come with what the kernels answer:
which number is allocated, or that the call fails.
-/

set_option autoImplicit false

namespace FStack.Model

def FF_MAX_FREEBSD_FILES : ℤ := 65536

def FF_KERNEL_FD_BASE : ℤ := 0x40000000

def FF_EPOLL_COEXIST_MAX : ℕ := 4

/-- SOURCE: lib/ff_host_interface.h:129-132 -/
def ffIsKernelFd (fd : ℤ) : Bool := FF_KERNEL_FD_BASE ≤ fd

/-- SOURCE: lib/ff_host_interface.h:139-142 -/
def ffKernelFdReal (fd : ℤ) : ℤ := fd - FF_KERNEL_FD_BASE

/-- An element of `ff_epoll_pairs`. -/
structure EpollPair where
  kq : ℤ := 0
  host_ep : ℤ := 0
deriving DecidableEq, Repr

/-- The descriptors of a process.  `files` and `host` say which open file a number of the F-Stack side
and of the host refers to; `next` is a name for the next file. -/
structure FdState where
  files : ℤ → Option ℕ
  host : ℤ → Option ℕ
  next : ℕ
  native_fd_map : ℤ → ℤ
  epoll_pairs : ℕ → EpollPair

/-- `ff_native_map_get`.
SOURCE: lib/ff_host_interface.c:261-267 -/
def ffNativeMapGet (st : FdState) (fd : ℤ) : ℤ :=
  if fd < 0 ∨ FF_MAX_FREEBSD_FILES ≤ fd then 0 else st.native_fd_map fd

theorem ffNativeMapGet_congr {st st' : FdState} (h : st'.native_fd_map = st.native_fd_map) (fd : ℤ) :
    ffNativeMapGet st' fd = ffNativeMapGet st fd := by
  simp only [ffNativeMapGet, h]

/-- `ff_native_map_set`; `ff_native_map_clear` sets 0.
SOURCE: lib/ff_host_interface.c:269-281 -/
def ffNativeMapSet (st : FdState) (fd host_fd : ℤ) : FdState :=
  if 0 ≤ fd ∧ fd < FF_MAX_FREEBSD_FILES then
    { st with native_fd_map := Function.update st.native_fd_map fd host_fd }
  else st

/-! ## Tables -/

/-- A number for a new descriptor, if the kernel finds one: one that is not in use. -/
def freeNumber (table : ℤ → Option ℕ) (n : Option ℤ) : Option ℤ :=
  n.filter fun fd => 0 ≤ fd && (table fd).isNone

theorem freeNumber_eq_some {table : ℤ → Option ℕ} {n : Option ℤ} {fd : ℤ}
    (h : freeNumber table n = some fd) : n = some fd ∧ 0 ≤ fd ∧ table fd = none := by
  unfold freeNumber at h
  obtain ⟨hn, hfree⟩ := Option.filter_eq_some_iff.mp h
  exact ⟨hn, by simpa using hfree⟩

def FdState.setFile (st : FdState) (fd : ℤ) (file : Option ℕ) : FdState :=
  { st with files := Function.update st.files fd file }

def FdState.setHost (st : FdState) (h : ℤ) (file : Option ℕ) : FdState :=
  { st with host := Function.update st.host h file }

/-- A new file, under a number of the F-Stack side. -/
def FdState.openFile (st : FdState) (fd : ℤ) : FdState :=
  { st.setFile fd (some st.next) with next := st.next + 1 }

/-- A new file, under a number of the host. -/
def FdState.openHost (st : FdState) (h : ℤ) : FdState :=
  { st.setHost h (some st.next) with next := st.next + 1 }

/-- `sys_socket`, `kern_kqueue`, `kern_accept`: a new file, if there is a number for it. -/
def FdState.newFile (st : FdState) (n : Option ℤ) : FdState :=
  match freeNumber st.files n with
  | none => st
  | some fd => st.openFile fd

/-- `ff_host_socket`, `ff_host_accept`: a new file of the host, if there is a number for it. -/
def FdState.newHost (st : FdState) (n : Option ℤ) : FdState :=
  match freeNumber st.host n with
  | none => st
  | some h => st.openHost h

/-! ## The pairs -/

/-- The pair of a kqueue.
SOURCE: lib/ff_epoll.c:49-56, 75-79 -/
def findPair (st : FdState) (kq : ℤ) : Option ℕ :=
  (List.range FF_EPOLL_COEXIST_MAX).find? fun i =>
    0 < (st.epoll_pairs i).host_ep && (st.epoll_pairs i).kq == kq

/-- A slot that is not in use.
SOURCE: lib/ff_epoll.c:53-55 -/
def freeSlot (st : FdState) : Option ℕ :=
  (List.range FF_EPOLL_COEXIST_MAX).find? fun i => (st.epoll_pairs i).host_ep ≤ 0

theorem freeSlot_eq_some {st : FdState} {slot : ℕ} (h : freeSlot st = some slot) :
    slot < FF_EPOLL_COEXIST_MAX ∧ (st.epoll_pairs slot).host_ep ≤ 0 := by
  obtain ⟨hp, hi, -⟩ := List.find?_range_eq_some.mp h
  exact ⟨List.mem_range.mp hi, by simpa using hp⟩

def FdState.setPair (st : FdState) (i : ℕ) (p : EpollPair) : FdState :=
  { st with epoll_pairs := Function.update st.epoll_pairs i p }

/-- `ff_epoll_host_ep` with `create` set, as `ff_epoll_ctl` and `ff_kevent` call it for a descriptor with
a kernel side; `n` is what `epoll_create1` finds.
SOURCE: lib/ff_epoll.c:43-65 -/
def ffEpollHostEp (st : FdState) (kq : ℤ) (n : Option ℤ) : FdState :=
  match findPair st kq, freeSlot st with
  | none, some slot =>
    match freeNumber st.host n with
    | none => st
    | some ep =>
      if 0 < ep then (st.openHost ep).setPair slot ⟨kq, ep⟩ else st.openHost ep
  | _, _ => st

/-- `ff_epoll_close_pair`.
SOURCE: lib/ff_epoll.c:67-81 -/
def ffEpollClosePair (st : FdState) (kq : ℤ) : FdState :=
  match findPair st kq with
  | none => st
  | some i => (st.setHost (st.epoll_pairs i).host_ep none).setPair i ⟨0, 0⟩

/-! ## The calls -/

/-- The stacks that `ff_socket` is asked for. -/
inductive SocketStack where
  | kernel
  | fstack
  | dual
deriving DecidableEq, Repr

/-- `ff_socket`: `fd` and `h` are what `sys_socket` and the host's `socket` find.
SOURCE: lib/ff_syscall_wrapper.c:914-961 -/
def ffSocket (st : FdState) (stack : SocketStack) (fd h : Option ℤ) : FdState :=
  match stack with
  | .kernel => st.newHost h
  | .fstack => st.newFile fd
  | .dual =>
    match freeNumber st.files fd with
    | none => st
    | some fd =>
      let st := st.openFile fd
      match freeNumber st.host h with
      | none => st
      | some h => ffNativeMapSet (st.openHost h) fd h

/-- `ff_kqueue` and `ff_epoll_create`.
SOURCE: lib/ff_syscall_wrapper.c:1939-1952, lib/ff_epoll.c:85-89 -/
def ffKqueue (st : FdState) (fd : Option ℤ) : FdState := st.newFile fd

/-- What `kern_accept` answers. -/
inductive AcceptAnswer where
  | accepted (fd : Option ℤ)
  | again
  | failed
deriving DecidableEq, Repr

/-- `ff_accept` and `ff_accept4`: where the F-Stack side has no connection, the host is asked.
SOURCE: lib/ff_syscall_wrapper.c:1594-1691 -/
def ffAccept (st : FdState) (s : ℤ) (answer : AcceptAnswer) (h : Option ℤ) : FdState :=
  if ffIsKernelFd s then
    if (st.host (ffKernelFdReal s)).isSome then st.newHost h else st
  else if (st.files s).isNone then st
  else
    match answer with
    | .accepted fd => st.newFile fd
    | .again => if 0 < ffNativeMapGet st s then st.newHost h else st
    | .failed => st

/-- `ff_dup`.
SOURCE: lib/ff_syscall_wrapper.c:2142-2168 -/
def ffDup (st : FdState) (oldfd : ℤ) (n : Option ℤ) : FdState :=
  if ffIsKernelFd oldfd then
    match st.host (ffKernelFdReal oldfd), freeNumber st.host n with
    | some file, some h => st.setHost h (some file)
    | _, _ => st
  else
    match st.files oldfd, freeNumber st.files n with
    | some file, some fd => st.setFile fd (some file)
    | _, _ => st

/-- `ff_dup2`: `inRange` is whether `newfd` is below the limit of its kernel.  What `newfd` referred to
is closed, on its own side only.
SOURCE: lib/ff_syscall_wrapper.c:2170-2203, freebsd/kern/kern_descrip.c:1034-1167 -/
def ffDup2 (st : FdState) (oldfd newfd : ℤ) (inRange : Bool) : FdState :=
  if ffIsKernelFd oldfd ≠ ffIsKernelFd newfd then st
  else if ffIsKernelFd oldfd then
    match st.host (ffKernelFdReal oldfd) with
    | some file => if inRange then st.setHost (ffKernelFdReal newfd) (some file) else st
    | none => st
  else
    match st.files oldfd with
    | some file => if 0 ≤ newfd ∧ inRange then st.setFile newfd (some file) else st
    | none => st

/-- The host socket of a descriptor is closed.
SOURCE: lib/ff_syscall_wrapper.c:1154-1158 -/
def closeNative (st : FdState) (fd : ℤ) : FdState :=
  if 0 < ffNativeMapGet st fd then
    ffNativeMapSet (st.setHost (ffNativeMapGet st fd) none) fd 0
  else st

/-- `ff_close`: `error` is whether `kern_close` reports an error of the file.  The number is free then
too, but the call returns before it looks at the kernel side.
SOURCE: lib/ff_syscall_wrapper.c:1137-1167, freebsd/kern/kern_descrip.c:1390-1512 -/
def ffClose (st : FdState) (fd : ℤ) (error : Bool) : FdState :=
  if ffIsKernelFd fd then st.setHost (ffKernelFdReal fd) none
  else if (st.files fd).isNone then st
  else
    let st := st.setFile fd none
    if error then st else ffEpollClosePair (closeNative st fd) fd

/-- A call, with what the kernels answer. -/
inductive FdCall where
  | socket (stack : SocketStack) (fd h : Option ℤ)
  | kqueue (fd : Option ℤ)
  | accept (s : ℤ) (answer : AcceptAnswer) (h : Option ℤ)
  | dup (oldfd : ℤ) (n : Option ℤ)
  | dup2 (oldfd newfd : ℤ) (inRange : Bool)
  | close (fd : ℤ) (error : Bool)
  | hostEp (kq : ℤ) (n : Option ℤ)

def fdCall (st : FdState) : FdCall → FdState
  | .socket stack fd h => ffSocket st stack fd h
  | .kqueue fd => ffKqueue st fd
  | .accept s answer h => ffAccept st s answer h
  | .dup oldfd n => ffDup st oldfd n
  | .dup2 oldfd newfd inRange => ffDup2 st oldfd newfd inRange
  | .close fd error => ffClose st fd error
  | .hostEp kq n => ffEpollHostEp st kq n

/-- A process without sockets, with the descriptors of the host that it has open. -/
def fdStart (isOpen : ℤ → Bool) : FdState where
  files _ := none
  host h := if isOpen h then some 0 else none
  next := 1
  native_fd_map _ := 0
  epoll_pairs _ := {}

end FStack.Model
