import Mathlib.Algebra.Order.Ring.Int

/-!
# Hooked system calls of micro threads

The library replaces `socket`, `read` and the other calls on sockets.  A call is passed to one of two
network stacks, F-Stack or the kernel.  Which one is asked twice: `mt_hook_find_fd` looks the descriptor
number up in the table of hooked sockets, and `ff_fdisused` asks whether F-Stack uses the number.  The
table also has the mode and the timeouts of the socket: a blocking call goes to `MtFrame`, which waits for
the socket with the other micro threads running, in the kqueue of F-Stack.

Both hook flags are set.  The state has what each stack knows about its descriptors and, for the
properties, what the application has asked for (`app`).
-/

set_option autoImplicit false

namespace FStack.Model

/-- The two stacks, each with its own descriptor numbers. -/
inductive NetStack where
  | fstack
  | kernel
deriving DecidableEq, Repr

/-- SOURCE: adapter/micro_thread/mt_sys_hook.cpp:41 -/
def MT_HOOK_MAX_FD : ℕ := 65535 * 2

/-- An entry of `g_mt_hook_fd_tab`, the bits of `sock_flag` one by one.
SOURCE: adapter/micro_thread/mt_sys_hook.cpp:42-50 -/
structure MtHookFd where
  inuse : Bool
  unblock : Bool
  read_timeout : ℤ
  write_timeout : ℤ
deriving DecidableEq, Repr

/-- What the application has asked for on a descriptor: the mode, and the timeouts in milliseconds. -/
structure AppSocket where
  nonblocking : Bool
  read_timeout : ℤ
  write_timeout : ℤ
deriving DecidableEq, Repr

/-- The hook table, the open descriptors of the stacks with their `O_NONBLOCK`, and the descriptors that
the application has got from `socket` and `accept` and not closed. -/
structure SysHook where
  tab : ℕ → MtHookFd
  openFd : NetStack → ℕ → Bool
  nonblock : NetStack → ℕ → Bool
  app : NetStack → ℕ → Option AppSocket

/-- One value of a table of both stacks is replaced. -/
def setAt {α : Type} (f : NetStack → ℕ → α) (st : NetStack) (fd : ℕ) (v : α) : NetStack → ℕ → α :=
  fun st' fd' => if st' = st ∧ fd' = fd then v else f st' fd'

@[simp] theorem setAt_same {α : Type} (f : NetStack → ℕ → α) (st : NetStack) (fd : ℕ) (v : α) :
    setAt f st fd v st fd = v := by
  simp [setAt]

theorem setAt_of_ne {α : Type} {f : NetStack → ℕ → α} {st st' : NetStack} {fd fd' : ℕ} {v : α}
    (h : ¬ (st' = st ∧ fd' = fd)) : setAt f st fd v st' fd' = f st' fd' := by
  simp [setAt, h]

namespace SysHook

/-- SOURCE: adapter/micro_thread/mt_sys_hook.cpp:57-69 -/
def mtHookFindFd (s : SysHook) (fd : ℕ) : Option MtHookFd :=
  if fd ≥ MT_HOOK_MAX_FD then none
  else if !(s.tab fd).inuse then none
  else some (s.tab fd)

/-- The table entry at `fd` is written, if there is one. -/
def setTab (s : SysHook) (fd : ℕ) (e : MtHookFd) : SysHook :=
  if fd ≥ MT_HOOK_MAX_FD then s else { s with tab := Function.update s.tab fd e }

/-- SOURCE: adapter/micro_thread/mt_sys_hook.cpp:71-81 -/
def mtHookNewFd (s : SysHook) (fd : ℕ) : SysHook := s.setTab fd ⟨true, false, 500, 500⟩

/-- SOURCE: adapter/micro_thread/mt_sys_hook.cpp:83-93 -/
def mtHookFreeFd (s : SysHook) (fd : ℕ) : SysHook := s.setTab fd ⟨false, false, 0, 0⟩

/-- SOURCE: freebsd/kern/kern_descrip.c:5639-5651 -/
def ffFdisused (s : SysHook) (fd : ℕ) : Bool := s.openFd .fstack fd

/-- The stack that every `ff_hook_` function passes the call to.
SOURCE: adapter/micro_thread/ff_hook.cpp:45-167 -/
def ffHook (s : SysHook) (fd : ℕ) : NetStack := if s.ffFdisused fd then .fstack else .kernel

end SysHook

/-- How a hooked call reaches a stack: once, or from the loop of `MtFrame` with a timeout, which waits before it
calls the stack or calls it first. -/
inductive Dispatch where
  | once (st : NetStack)
  | mtFrame (st : NetStack) (waitsFirst : Bool) (timeout : ℤ)
deriving DecidableEq, Repr

/-- The form of the hooked calls that transfer data: the socket is looked up, and a blocking one is left
to `MtFrame`. -/
def hookedCall (waitsFirst : Bool) (timeout : MtHookFd → ℤ) (s : SysHook) (fd : ℕ) : Dispatch :=
  match s.mtHookFindFd fd with
  | none => .once .kernel
  | some hook_fd =>
    if hook_fd.unblock then .once (s.ffHook fd) else .mtFrame (s.ffHook fd) waitsFirst (timeout hook_fd)

namespace SysHook

/-- SOURCE: adapter/micro_thread/mt_sys_hook.cpp:159-174 -/
def connect : SysHook → ℕ → Dispatch := hookedCall false (·.write_timeout)

/-- SOURCE: adapter/micro_thread/mt_sys_hook.cpp:176-191 -/
def read : SysHook → ℕ → Dispatch := hookedCall false (·.read_timeout)

/-- SOURCE: adapter/micro_thread/mt_sys_hook.cpp:193-208 -/
def write : SysHook → ℕ → Dispatch := hookedCall false (·.write_timeout)

/-- SOURCE: adapter/micro_thread/mt_sys_hook.cpp:210-227 -/
def sendto : SysHook → ℕ → Dispatch := hookedCall false (·.write_timeout)

/-- SOURCE: adapter/micro_thread/mt_sys_hook.cpp:229-246 -/
def recvfrom : SysHook → ℕ → Dispatch := hookedCall true (·.read_timeout)

/-- SOURCE: adapter/micro_thread/mt_sys_hook.cpp:248-263 -/
def recv : SysHook → ℕ → Dispatch := hookedCall true (·.read_timeout)

/-- SOURCE: adapter/micro_thread/mt_sys_hook.cpp:265-280 -/
def send : SysHook → ℕ → Dispatch := hookedCall false (·.write_timeout)

/-- SOURCE: adapter/micro_thread/mt_sys_hook.cpp:358-367 -/
def accept (s : SysHook) (fd : ℕ) : Dispatch := .once (s.ffHook fd)

end SysHook

/-- The calls that transfer data or connect. -/
inductive IoCall where
  | connect | read | write | sendto | recvfrom | recv | send
deriving DecidableEq, Repr

def IoCall.dispatch : IoCall → SysHook → ℕ → Dispatch
  | .connect => SysHook.connect
  | .read => SysHook.read
  | .write => SysHook.write
  | .sendto => SysHook.sendto
  | .recvfrom => SysHook.recvfrom
  | .recv => SysHook.recv
  | .send => SysHook.send

/-- `val->tv_sec * 1000 + val->tv_usec / 1000` before it is stored in an `int`. -/
structure Timeval where
  tv_sec : ℤ
  tv_usec : ℤ
deriving DecidableEq, Repr

def Timeval.ms (val : Timeval) : ℤ := val.tv_sec * 1000 + val.tv_usec.tdiv 1000

/-- The conversion to `int`. -/
def toInt32 (v : ℤ) : ℤ := (v + 2 ^ 31) % 2 ^ 32 - 2 ^ 31

/-- An option of `setsockopt`: the two timeouts of `SOL_SOCKET`, or another one. -/
inductive SockOpt where
  | rcvtimeo (val : Timeval)
  | sndtimeo (val : Timeval)
  | other
deriving DecidableEq, Repr

/-- A hooked call, with the number that the stack answers where it makes a descriptor.  `owner` says
which of two descriptors with the number `fd` the application means; the code does not see it. -/
inductive HookCall where
  | socket (domain type : ℕ) (ret : Option ℕ)
  | accept (owner : NetStack) (fd : ℕ) (ret : Option ℕ)
  | ioctl (owner : NetStack) (fd : ℕ) (fionbio : ℤ)
  | fcntl (owner : NetStack) (fd : ℕ) (o_nonblock : Bool)
  | setsockopt (owner : NetStack) (fd : ℕ) (opt : SockOpt)
  | io (owner : NetStack) (fd : ℕ) (call : IoCall)
  | close (owner : NetStack) (fd : ℕ)
deriving DecidableEq, Repr

namespace SysHook

def AF_INET : ℕ := 2
def SOCK_STREAM : ℕ := 1
def SOCK_DGRAM : ℕ := 2
def SOCK_NONBLOCK : ℕ := 0o4000

/-- SOURCE: adapter/micro_thread/ff_hook.cpp:37-43 -/
def ffHookSocket (domain type : ℕ) : NetStack :=
  if AF_INET ≠ domain ∨ (SOCK_STREAM ≠ type ∧ SOCK_DGRAM ≠ type) then .kernel else .fstack

/-- A stack opens a descriptor; a number that is in use is not given out, the call fails. -/
def fresh (s : SysHook) (st : NetStack) (ret : Option ℕ) : Option ℕ :=
  match ret with
  | none => none
  | some fd => if s.openFd st fd then none else some fd

def opened (s : SysHook) (st : NetStack) (fd : ℕ) (nonblock : Bool) : SysHook :=
  { s with
    openFd := setAt s.openFd st fd true
    nonblock := setAt s.nonblock st fd nonblock
    app := setAt s.app st fd (some ⟨false, 500, 500⟩) }

/-- The mode of the descriptor `fd` of the stack `st` is set. -/
def setNonblock (s : SysHook) (st : NetStack) (fd : ℕ) (v : Bool) : SysHook :=
  { s with nonblock := setAt s.nonblock st fd v }

/-- A new socket, before its mode is set.  SOURCE: adapter/micro_thread/mt_sys_hook.cpp:132-138 -/
def socketOpened (s : SysHook) (domain type fd : ℕ) : SysHook :=
  (s.opened (ffHookSocket domain type) fd (type &&& SOCK_NONBLOCK ≠ 0)).mtHookNewFd fd

/-- SOURCE: adapter/micro_thread/mt_sys_hook.cpp:123-145 -/
def socket (s : SysHook) (domain type : ℕ) (ret : Option ℕ) : SysHook :=
  match s.fresh (ffHookSocket domain type) ret with
  | none => s
  | some fd =>
    let s := s.socketOpened domain type fd
    s.setNonblock (s.ffHook fd) fd true

/-- What a successful `accept` leaves.  An F-Stack socket takes its mode from the listening socket, a
kernel socket does not. -/
def accepted (s : SysHook) (fd : ℕ) (ret : Option ℕ) : SysHook :=
  match s.fresh (s.ffHook fd) ret with
  | none => s
  | some new => s.opened (s.ffHook fd) new (s.ffHook fd = .fstack ∧ s.nonblock .fstack fd)

/-- The table entry of a hooked socket is marked as non-blocking. -/
def markUnblock (s : SysHook) (fd : ℕ) : SysHook :=
  match s.mtHookFindFd fd with
  | none => s
  | some hook_fd => s.setTab fd { hook_fd with unblock := true }

/-- SOURCE: adapter/micro_thread/mt_sys_hook.cpp:98-121 -/
def ioctl (s : SysHook) (fd : ℕ) (fionbio : ℤ) : SysHook :=
  let s := if fionbio ≠ 0 then s.markUnblock fd else s
  s.setNonblock (s.ffHook fd) fd (fionbio ≠ 0)

/-- The stack for `fcntl` and `setsockopt`, which are passed to F-Stack only for hooked sockets. -/
def hookedOr (s : SysHook) (fd : ℕ) : NetStack :=
  match s.mtHookFindFd fd with
  | none => .kernel
  | some _ => s.ffHook fd

/-- SOURCE: adapter/micro_thread/mt_sys_hook.cpp:307-334 -/
def fcntl (s : SysHook) (fd : ℕ) (o_nonblock : Bool) : SysHook :=
  let st := s.hookedOr fd
  let s := if o_nonblock then s.markUnblock fd else s
  s.setNonblock st fd o_nonblock

/-- SOURCE: adapter/micro_thread/mt_sys_hook.cpp:282-305 -/
def setsockopt (s : SysHook) (fd : ℕ) (opt : SockOpt) : SysHook :=
  match s.mtHookFindFd fd with
  | none => s
  | some hook_fd =>
    match opt with
    | .rcvtimeo val => s.setTab fd { hook_fd with read_timeout := toInt32 val.ms }
    | .sndtimeo val => s.setTab fd { hook_fd with write_timeout := toInt32 val.ms }
    | .other => s

/-- SOURCE: adapter/micro_thread/mt_sys_hook.cpp:147-157 -/
def close (s : SysHook) (fd : ℕ) : SysHook :=
  let s := s.mtHookFreeFd fd
  { s with openFd := setAt s.openFd (s.ffHook fd) fd false }

/-- The application has set something on its descriptor. -/
def asks (s : SysHook) (owner : NetStack) (fd : ℕ) (f : AppSocket → AppSocket) : SysHook :=
  { s with app := setAt s.app owner fd ((s.app owner fd).map f) }

/-- The application has no longer the descriptor. -/
def drops (s : SysHook) (owner : NetStack) (fd : ℕ) : SysHook :=
  { s with app := setAt s.app owner fd none }

end SysHook

/-- The state before the first hooked call; the descriptors of the stacks are arbitrary. -/
def SysHook.start (openFd nonblock : NetStack → ℕ → Bool) : SysHook where
  tab := fun _ => ⟨false, false, 0, 0⟩
  openFd := openFd
  nonblock := nonblock
  app := fun _ _ => none

/-- What the application means with the option. -/
def SockOpt.apply : SockOpt → AppSocket → AppSocket
  | .rcvtimeo val, a => { a with read_timeout := val.ms }
  | .sndtimeo val, a => { a with write_timeout := val.ms }
  | .other, a => a

/-- One call of the application. -/
def hookStep (s : SysHook) : HookCall → SysHook
  | .socket domain type ret => s.socket domain type ret
  | .accept _ fd ret => s.accepted fd ret
  | .ioctl owner fd fionbio =>
    (s.ioctl fd fionbio).asks owner fd fun a => { a with nonblocking := fionbio ≠ 0 }
  | .fcntl owner fd o_nonblock =>
    (s.fcntl fd o_nonblock).asks owner fd fun a => { a with nonblocking := o_nonblock }
  | .setsockopt owner fd opt => (s.setsockopt fd opt).asks owner fd opt.apply
  | .io _ _ _ => s
  | .close owner fd => (s.close fd).drops owner fd

/-- Where a call waits for its socket; `refused` is a call that fails before it can wait. -/
inductive Waiting where
  | immediate
  | inMtFrame (timeout : ℤ)
  | inStack
  | refused
deriving DecidableEq, Repr

/-- The stack that executes a call, and where the call waits: a stack returns at once from a call on a non-blocking
descriptor.  `KqueueSchedule` fails for a descriptor of the kernel, which `ff_kevent` does not know.
SOURCE: adapter/micro_thread/micro_thread.cpp:912-1384; freebsd/kern/kern_event.c:1629-1637 -/
def SysHook.outcome (s : SysHook) (fd : ℕ) : Dispatch → NetStack × Waiting
  | .once st => (st, if s.nonblock st fd then .immediate else .inStack)
  | .mtFrame st waitsFirst timeout =>
    (st, if !waitsFirst && !s.nonblock st fd then .inStack
      else if st = .fstack then .inMtFrame timeout else .refused)

end FStack.Model
