import FStack.Model.KeventCoexist
import FStack.Model.ZeroCopy

/-!
# `kevent` of the preload library

Descriptors of F-Stack are shown to the application with `ff_kernel_max_fd` added.  `kevent`
(`adapter/syscall/ff_hook_syscall.c`) subtracts it from the identifiers of the changes, as far as their filter is
one for descriptors, and adds it to the identifiers of the events that F-Stack returns.

An event has an identifier, a filter and fields of some type `α` that are handed through.
-/

set_option autoImplicit false

namespace FStack.Model

/-- SOURCE: lib/ff_event.h:42 -/
def EVFILT_VNODE : ℤ := -4
def EVFILT_TIMER : ℤ := -7
structure HookKevent (α : Type) where
  ident : BitVec 64
  filter : ℤ
  rest : α
deriving DecidableEq, Repr

/-- `ff_kernel_max_fd`, the limit of the descriptors of the kernel. -/
structure KernelMaxFd where
  fd : ℤ
  pos : 0 < fd
  lt : fd < 2 ^ 31

/-- An identifier that is passed as an `int`, and an `int` that is stored as an identifier. -/
def identToInt (ident : BitVec 64) : ℤ := int32 ident.toNat

def intToIdent (fd : ℤ) : BitVec 64 := BitVec.ofInt 64 fd

/-- SOURCE: adapter/syscall/ff_hook_syscall.c:296-298 -/
def convertFstackFd (max : KernelMaxFd) (sockfd : ℤ) : ℤ := int32 (sockfd + max.fd)

/-- SOURCE: adapter/syscall/ff_hook_syscall.c:301-307 -/
def restoreFstackFd (max : KernelMaxFd) (sockfd : ℤ) : ℤ :=
  if sockfd < max.fd then sockfd else int32 (sockfd - max.fd)

/-- The filters whose identifiers are descriptors. -/
def isFdFilter (filter : ℤ) : Bool := filter = EVFILT_READ || filter = EVFILT_WRITE || filter = EVFILT_VNODE

variable {α : Type}

/-- A change, as it is passed to F-Stack.
SOURCE: adapter/syscall/ff_hook_syscall.c:2587-2599 -/
def requestKevent (max : KernelMaxFd) (kev : HookKevent α) : HookKevent α :=
  if isFdFilter kev.filter then
    { kev with ident := intToIdent (restoreFstackFd max (identToInt kev.ident)) }
  else kev

/-- An event, as it is returned to the application.
SOURCE: adapter/syscall/ff_hook_syscall.c:2746-2749 -/
def replyKevent (max : KernelMaxFd) (kev : HookKevent α) : HookKevent α :=
  { kev with ident := intToIdent (convertFstackFd max (identToInt kev.ident)) }

/-- What F-Stack answers: the events it has written, as many as there is room for; or no answer until the
timeout, or an error. -/
inductive KeventAnswer (α : Type) where
  | events (list : List (HookKevent α))
  | timedOut
  | failed
deriving Repr

/-- The `changelist` that F-Stack is given.
SOURCE: adapter/syscall/ff_hook_syscall.c:2574-2608 -/
def keventChangelist (max : KernelMaxFd) (changelist : List (HookKevent α)) : List (HookKevent α) :=
  changelist.map (requestKevent max)

/-- From the answer on: `eventlist` as the application finds it, and what is returned.  F-Stack writes into a
list of its own, of which `ret` entries are copied; the loop goes through all `nevents` entries.
SOURCE: adapter/syscall/ff_hook_syscall.c:2714-2767 -/
def keventReply (max : KernelMaxFd) (eventlist : List (HookKevent α)) (answer : KeventAnswer α) :
    List (HookKevent α) × ℤ :=
  match answer with
  | .timedOut => (eventlist, 0)
  | .failed => (eventlist, -1)
  | .events list =>
    let sh_eventlist := list.take eventlist.length
    if sh_eventlist.length = 0 then (eventlist, 0)
    else
      ((sh_eventlist ++ eventlist.drop sh_eventlist.length).map (replyKevent max), sh_eventlist.length)

end FStack.Model
