import FStack.Model.KeventHook
import FStack.Model.SysHook

/-!
# The descriptors of nginx

nginx runs on sockets of F-Stack and of the kernel at once.  The functions of libc that
`app/nginx-1.28.0/src/event/modules/ngx_ff_module.c` takes the place of show a descriptor of F-Stack to the application
with `ngx_max_sockets` added, which is the limit for the descriptors of the kernel.

The model has the values that the application holds, each with the descriptor that it was made from, and the memory in
which it has its changelists, each change with the descriptor of F-Stack that was meant when it was written.
-/

set_option autoImplicit false

namespace FStack.Model

/-- `ngx_max_sockets` and the flag `inited` of the thread. -/
structure NgxFfModule where
  ngx_max_sockets : ℤ
  inited : Bool
deriving DecidableEq, Repr

/-- The end of `ff_mod_init`: what it returns, and the module after it, from the results of `ff_init` and `ff_getmaxfd`.
There is none where the sum is not an `intptr_t`, which C does not define.
SOURCE: app/nginx-1.28.0/src/event/modules/ngx_ff_module.c:188-201 -/
def ffModInit (ngx_max_sockets rc : ℤ) (ff_getmaxfd : BitVec 32) : Option (ℤ × NgxFfModule) :=
  if rc = 0 then
    let sum := ngx_max_sockets + ff_getmaxfd.toNat
    if 2 ^ 63 ≤ sum then none
    else some (if 2 ^ 31 - 1 < sum then -1 else rc, ⟨ngx_max_sockets, true⟩)
  else some (rc, ⟨ngx_max_sockets, false⟩)

/-- A descriptor and whose it is: what a call of the application comes to. -/
inductive NgxDescriptor where
  | fstack (fd : ℤ)
  | kernel (fd : ℤ)
deriving DecidableEq, Repr

/-- The functions of libc that only go on to their namesakes. -/
inductive HookedFunction where
  | bind
  | connect
  | getpeername
  | getsockname
  | send
  | sendto
  | sendmsg
  | recvmsg
  | recv
  | listen
  | getsockopt
  | setsockopt
  | close
  | shutdown
  | writev
  | readv
  | read
  | write
  | ioctl
deriving DecidableEq, Repr

namespace NgxFfModule

open SysHook (AF_INET SOCK_STREAM SOCK_DGRAM SOCK_NONBLOCK)

def AF_INET6 : ℕ := 10
def SOCK_CLOEXEC : ℕ := 0o2000000

/-- SOURCE: lib/ff_api.h:96 -/
def SOCK_FSTACK : ℕ := 0x01000000

/-- `type & ~flag` of an `int`. -/
def clearFlag (type : BitVec 32) (flag : ℕ) : BitVec 32 := type &&& ~~~BitVec.ofNat 32 flag

/-- SOURCE: app/nginx-1.28.0/src/event/modules/ngx_ff_module.c:214-227 -/
def fstackTerritory (domain : ℤ) (type : BitVec 32) : Bool :=
  let type := clearFlag (clearFlag (clearFlag type SOCK_CLOEXEC) SOCK_NONBLOCK) SOCK_FSTACK
  !(((AF_INET : ℤ) ≠ domain && (AF_INET6 : ℤ) ≠ domain) ||
    (BitVec.ofNat 32 SOCK_STREAM ≠ type && BitVec.ofNat 32 SOCK_DGRAM ≠ type))

/-- SOURCE: app/nginx-1.28.0/src/event/modules/ngx_ff_module.c:147-149 -/
def convertFstackFd (m : NgxFfModule) (sockfd : ℤ) : ℤ := int32 (sockfd + m.ngx_max_sockets)

/-- SOURCE: app/nginx-1.28.0/src/event/modules/ngx_ff_module.c:152-158 -/
def restoreFstackFd (m : NgxFfModule) (sockfd : ℤ) : ℤ :=
  if sockfd ≤ m.ngx_max_sockets then sockfd else int32 (sockfd - m.ngx_max_sockets)

/-- SOURCE: app/nginx-1.28.0/src/event/modules/ngx_ff_module.c:161-167 -/
def isFstackFd (m : NgxFfModule) (sockfd : ℤ) : Bool :=
  if m.inited = false then false else m.ngx_max_sockets ≤ sockfd

/-- The descriptor that a function with an argument `sockfd` calls its namesake with.
SOURCE: app/nginx-1.28.0/src/event/modules/ngx_ff_module.c:255-264 -/
def reached (m : NgxFfModule) (sockfd : ℤ) : NgxDescriptor :=
  if m.isFstackFd sockfd then .fstack (m.restoreFstackFd sockfd) else .kernel sockfd

/-- SOURCE: app/nginx-1.28.0/src/event/modules/ngx_ff_module.c:255-402, 436-514 -/
def hooked (m : NgxFfModule) (f : HookedFunction) (sockfd : ℤ) : HookedFunction × NgxDescriptor := (f, m.reached sockfd)

/-- The descriptor that a call of `socket` makes, and what it returns; `made` is the result of `ff_socket` or of the
function of the kernel, whichever is called.
SOURCE: app/nginx-1.28.0/src/event/modules/ngx_ff_module.c:229-253 -/
def socket (m : NgxFfModule) (domain : ℤ) (type : BitVec 32) (made : ℤ) : NgxDescriptor × ℤ :=
  if m.inited = false then (.kernel made, made)
  else if fstackTerritory domain type = false then (.kernel made, made)
  else if type &&& BitVec.ofNat 32 SOCK_FSTACK = 0 then (.kernel made, made)
  else (.fstack made, if made ≠ -1 then m.convertFstackFd made else made)

/-- SOURCE: app/nginx-1.28.0/src/event/modules/ngx_ff_module.c:404-418 -/
def accept (m : NgxFfModule) (sockfd made : ℤ) : NgxDescriptor × ℤ :=
  if m.isFstackFd sockfd then (.fstack made, if made ≠ -1 then m.convertFstackFd made else made)
  else (.kernel made, made)

/-- SOURCE: app/nginx-1.28.0/src/event/modules/ngx_ff_module.c:420-434 -/
def accept4 (m : NgxFfModule) (sockfd made : ℤ) : NgxDescriptor × ℤ :=
  if m.isFstackFd sockfd then (.fstack made, if made ≠ -1 then m.convertFstackFd made else made)
  else (.kernel made, made)

/-- What the loop of `kevent` makes of a change, in the memory of the application.
SOURCE: app/nginx-1.28.0/src/event/modules/ngx_ff_module.c:527-544 -/
def keventChange (m : NgxFfModule) (kev : HookKevent Unit) : HookKevent Unit :=
  if isFdFilter kev.filter then { kev with ident := intToIdent (m.restoreFstackFd (identToInt kev.ident)) } else kev

end NgxFfModule

/-- The application.  `held` has the descriptor that a value was made from, and `meant` has that of a change. -/
structure NgxApp where
  ff : NgxFfModule
  held : ℤ → Option NgxDescriptor
  changes : ℕ → HookKevent Unit
  meant : ℕ → Option ℤ

/-- What the application does. -/
inductive NgxCall where
  | socket (domain : ℤ) (type : BitVec 32) (made : ℤ)
  | accept (sockfd made : ℤ)
  | accept4 (sockfd made : ℤ)
  | hooked (f : HookedFunction) (sockfd : ℤ)
  | change (i : ℕ) (kev : HookKevent Unit)
  | kevent (changelist nchanges : ℕ)
deriving DecidableEq, Repr

namespace NgxApp

/-- An application that holds nothing, with anything in its memory. -/
def start (ff : NgxFfModule) (memory : ℕ → HookKevent Unit) : NgxApp := ⟨ff, fun _ => none, memory, fun _ => none⟩

/-- A value that a call has returned. -/
def hold (s : NgxApp) (made : NgxDescriptor × ℤ) : NgxApp :=
  if made.2 = -1 then s else { s with held := Function.update s.held made.2 (some made.1) }

/-- The descriptor of F-Stack that a change is about. -/
def meantBy (s : NgxApp) (kev : HookKevent Unit) : Option ℤ :=
  if isFdFilter kev.filter then
    match s.held (identToInt kev.ident) with
    | some (.fstack fd) => some fd
    | _ => none
  else none

def step (s : NgxApp) : NgxCall → NgxApp
  | .socket domain type made => s.hold (s.ff.socket domain type made)
  | .accept sockfd made => s.hold (s.ff.accept sockfd made)
  | .accept4 sockfd made => s.hold (s.ff.accept4 sockfd made)
  | .hooked f sockfd => if f = .close then { s with held := Function.update s.held sockfd none } else s
  | .change i kev =>
    { s with changes := Function.update s.changes i kev, meant := Function.update s.meant i (s.meantBy kev) }
  | .kevent changelist nchanges =>
    { s with changes := fun i =>
        if changelist ≤ i ∧ i < changelist + nchanges then s.ff.keventChange (s.changes i) else s.changes i }

end NgxApp

end FStack.Model
