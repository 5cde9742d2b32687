import FStack.Model.FfMsg
import Mathlib.Algebra.Order.Ring.Int

/-!
# What the management tools put into a message

`sysctl`, `ioctl_va`, `rtioctl`, `ngctl` and `ipfw_ctl` (`tools/compat`, `tools/libnetgraph`, `tools/ipfw`) take
a message from the pool, compare the size of their arguments with `buf_len`, and copy the arguments behind
`buf_addr`.  `top`, `traffic` and `knictl` use the union only.

Lengths of type `size_t` are computed modulo `2 ^ 64`.
-/

set_option autoImplicit false

namespace FStack.Model

variable {α : Type}

def MsgPtr.add : MsgPtr → ℕ → MsgPtr
  | .embedded m off, n => .embedded m (off + n)
  | .extra buf off, n => .extra buf (off + n)

/-- Bytes that a tool writes. -/
structure MsgWrite where
  ptr : MsgPtr
  len : ℕ
deriving DecidableEq, Repr

/-- A message that a tool is done with: it is sent, or given back; and the size of the buffer that has been
allocated for it, if any. -/
structure Marshalled (α : Type) where
  msg : FfMsg α
  writes : List MsgWrite
  send : Bool
  extra : Option ℕ

/-- The message is given back. -/
def Marshalled.refuse (msg : FfMsg α) (writes : List MsgWrite) : Marshalled α :=
  ⟨msg, writes, false, none⟩

/-- The message is sent. -/
def Marshalled.accept (msg : FfMsg α) (writes : List MsgWrite) : Marshalled α :=
  ⟨msg, writes, true, none⟩

/-! ## `sysctl` -/

/-- The arguments of `sysctl`: which pointers are set, and the lengths. -/
structure SysctlArgs where
  namelen : ℕ
  old : Bool
  oldlenp : Option ℕ
  new : Bool
  newlen : ℕ
deriving DecidableEq, Repr

def SysctlArgs.oldlen (a : SysctlArgs) : ℕ := if a.old then a.oldlenp.getD 0 else 0

/-- `total_len`, before it is reduced. -/
def SysctlArgs.size (a : SysctlArgs) : ℕ := a.namelen * 4 + 8 + a.oldlen + a.newlen

/-- What is copied from `buf_addr` on: the name, the new value, the length and the old value. -/
def SysctlArgs.writes (a : SysctlArgs) (buf_addr : MsgPtr) : List MsgWrite :=
  let newlen := if a.new then a.newlen else 0
  let new := if newlen = 0 then [] else [⟨buf_addr.add (a.namelen * 4), newlen⟩]
  let old :=
    match a.oldlenp with
    | none => []
    | some oldlen =>
      ⟨buf_addr.add (a.namelen * 4 + newlen), 8⟩ ::
        if a.old then [⟨buf_addr.add (a.namelen * 4 + newlen + 8), oldlen⟩] else []
  ⟨buf_addr, a.namelen * 4⟩ :: (new ++ old)

/-- `sysctl`, when `rte_malloc` would answer with the buffer `buf`, or with `NULL`.
SOURCE: tools/compat/sysctl.c:45-106 -/
def marshalSysctl (buf : ℕ) (granted : Bool) (a : SysctlArgs) (msg : FfMsg α) : Marshalled α :=
  let total_len := a.size % 2 ^ 64
  if msg.buf_len < total_len then
    if granted then
      let msg :=
        { msg with
          original_buf := some msg.buf_addr
          original_buf_len := msg.buf_len
          buf_addr := .extra buf 0
          buf_len := total_len }
      ⟨{ msg with msg_type := FF_SYSCTL }, a.writes msg.buf_addr, true, some total_len⟩
    else .refuse msg []
  else .accept { msg with msg_type := FF_SYSCTL } (a.writes msg.buf_addr)

/-! ## `ioctl_va` -/

/-- The address families that `ioctl_va` tells apart. -/
inductive IoctlFamily where
  | inet
  | inet6
  | other
deriving DecidableEq, Repr

/-- The arguments after `data`: none, a family, or memory that a pointer in `data` leads to. -/
inductive IoctlMore where
  | none
  | family (af : IoctlFamily)
  | memory (offset clen : ℕ)
deriving DecidableEq, Repr

def IoctlMore.af : IoctlMore → IoctlFamily
  | .family af => af
  | _ => .inet

/-- `IOCPARM_LEN`.
SOURCE: tools/compat/include/sys/ioccom.h:48-50 -/
def iocparmLen (com : ℕ) : ℕ := com / 2 ^ 16 % 2 ^ 13

/-- Whether the command is one with parameters.
SOURCE: tools/compat/ioctl.c:77-87 -/
def iocparmOk (com : ℕ) : Bool :=
  iocparmLen com ≤ 2 ^ 13 && iocparmLen com ≠ 0 && (com.testBit 31 || com.testBit 30) && !com.testBit 29

/-- `ioctl_va`.
SOURCE: tools/compat/ioctl.c:95-128 -/
def marshalIoctl (inet6 : Bool) (com : ℕ) (more : IoctlMore) (msg : FfMsg α) : Marshalled α :=
  let size := iocparmLen com
  if msg.buf_len < size then .refuse msg []
  else
    match if inet6 ∧ more.af = .inet6 then some FF_IOCTL6
      else if more.af = .inet then some FF_IOCTL else none with
    | none => .refuse msg []
    | some type =>
      let msg := { msg with msg_type := type }
      let data : MsgWrite := ⟨msg.buf_addr, size⟩
      match more with
      | .memory offset clen =>
        if msg.buf_len < (size + clen) % 2 ^ 64 then .refuse msg [data]
        else .accept msg [data, ⟨msg.buf_addr.add offset, 8⟩, ⟨msg.buf_addr.add size, clen⟩]
      | _ => .accept msg [data]

/-! ## `rtioctl` -/

/-- `rtioctl`.
SOURCE: tools/compat/rtioctl.c:85-103 -/
def marshalRtioctl (len : ℕ) (msg : FfMsg α) : Marshalled α :=
  if msg.buf_len < len then .refuse msg []
  else
    .accept { msg with msg_type := FF_ROUTE, buf_addr := msg.buf_addr.add len } [⟨msg.buf_addr, len⟩]

/-! ## `ngctl` -/

/-- The calls of `libnetgraph`, with the lengths they are given.
SOURCE: tools/libnetgraph/compat.c:148-235 -/
inductive NgCall where
  | socket
  | bind (namelen : ℕ)
  | connect (namelen : ℕ)
  | sendto (len tolen : ℕ)
  | recvfrom (len fromlen : ℕ)
  | close
deriving DecidableEq, Repr

/-- The length that is compared with `buf_len`, before it is reduced. -/
def NgCall.size : NgCall → ℕ
  | .socket => 24
  | .bind namelen => 24 + namelen
  | .connect namelen => 24 + namelen
  | .sendto len tolen => 48 + len + tolen
  | .recvfrom len fromlen => 48 + len + fromlen + 4
  | .close => 8

/-- What is copied.  The pointers of `recvfrom` are computed in units of `struct sockaddr` and of `socklen_t`.
SOURCE: tools/libnetgraph/compat.c:59-108 -/
def NgCall.writes (c : NgCall) (buf_addr : MsgPtr) : List MsgWrite :=
  match c with
  | .socket => [⟨buf_addr, 24⟩]
  | .bind namelen => [⟨buf_addr, 24⟩, ⟨buf_addr.add 24, namelen⟩]
  | .connect namelen => [⟨buf_addr, 24⟩, ⟨buf_addr.add 24, namelen⟩]
  | .sendto len tolen => [⟨buf_addr, 48⟩, ⟨buf_addr.add 48, len⟩, ⟨buf_addr.add (48 + len), tolen⟩]
  | .recvfrom len fromlen =>
    [⟨buf_addr, 48⟩, ⟨buf_addr.add 48, len⟩, ⟨buf_addr.add (48 + 16 * len), fromlen⟩,
      ⟨buf_addr.add (48 + 4 * (len + fromlen)), 4⟩]
  | .close => [⟨buf_addr, 8⟩]

/-- `ngctl`.
SOURCE: tools/libnetgraph/compat.c:49-108 -/
def marshalNgctl (c : NgCall) (msg : FfMsg α) : Marshalled α :=
  if msg.buf_len < c.size % 2 ^ 64 then .refuse msg []
  else .accept { msg with msg_type := FF_NGCTL } (c.writes msg.buf_addr)

/-! ## `ipfw_ctl` -/

/-- `len`, as an `int`: 32 bytes of `struct ff_ipfw_args`, the option and its length. -/
def ipfwLen (optlen : ℕ) : ℤ := ((32 + optlen + 4 : ℕ) : ℤ).bmod (2 ^ 32)

/-- `ipfw_ctl`; `len` is converted to `size_t` when it is compared.
SOURCE: tools/ipfw/compat.c:59-74 -/
def marshalIpfw (optlen : ℕ) (msg : FfMsg α) : Marshalled α :=
  if msg.buf_len < (ipfwLen optlen % 2 ^ 64).toNat then .refuse msg []
  else
    .accept { msg with msg_type := FF_IPFW_CTL }
      [⟨msg.buf_addr, optlen⟩, ⟨msg.buf_addr.add optlen, 4⟩]

/-! ## The calls -/

/-- A call of a tool.  `optlen` of `ipfw_ctl` may be `NULL` in a `get` only. -/
inductive ToolCall where
  | sysctl (a : SysctlArgs)
  | ioctl (com : ℕ) (more : IoctlMore)
  | rtioctl (len : ℕ)
  | ngctl (c : NgCall)
  | ipfwGet (optval : Bool) (optlen : Option ℕ)
  | ipfwSet (optlen : ℕ)
  | top
  | traffic
  | knictl
deriving DecidableEq, Repr

/-- The command of an `ioctl`, without what `ioctl_va` takes for a sign extension. -/
def ioctlCommand (com : ℕ) : ℕ := if 0xffffffff < com then com % 2 ^ 32 else com

/-- The call takes no message.
SOURCE: tools/compat/sysctl.c:41-44, tools/compat/ioctl.c:77-87, tools/ipfw/compat.c:41-51 -/
def ToolCall.invalid : ToolCall → Bool
  | .sysctl a => a.old && a.oldlenp.isNone
  | .ioctl com _ => !iocparmOk (ioctlCommand com)
  | .ipfwGet optval optlen => !optval || optlen.isNone
  | _ => false

/-- What the call does with the message it has taken.
SOURCE: tools/top/top.c:23, tools/traffic/traffic.c:23, tools/knictl/knictl.c:57-58 -/
def ToolCall.marshal (inet6 : Bool) (buf : ℕ) (granted : Bool) (call : ToolCall) (msg : FfMsg α) :
    Marshalled α :=
  match call with
  | .sysctl a => marshalSysctl buf granted a msg
  | .ioctl com more => marshalIoctl inet6 (ioctlCommand com) more msg
  | .rtioctl len => marshalRtioctl len msg
  | .ngctl c => marshalNgctl c msg
  | .ipfwGet _ optlen => marshalIpfw (optlen.getD 0) msg
  | .ipfwSet optlen => marshalIpfw optlen msg
  | .top => .accept { msg with msg_type := FF_TOP } []
  | .traffic => .accept { msg with msg_type := FF_TRAFFIC } []
  | .knictl => .accept { msg with msg_type := FF_KNICTL } []

end FStack.Model

/-!
## Tools and servers

Any number of tools share one pool with the F-Stack processes.  A tool takes a message and fills it, sends it,
and takes messages from the out-ring of its type until it finds its own; a process takes its in-ring in bursts
and answers one message after the other.

An operation on the pool or on a ring is one step.  So is what a tool does with a message nobody else has: that
it fills the message it has taken, or gives back the one it has received.  Three fields record what happens and
are not read: `calls` and `request` say which call has filled a message, and `handled` what `handle_msg` has
answered last in a message.
-/

namespace FStack.Model

variable {σ α : Type}

/-- The processes and tools, how they were built, and the stack. -/
structure ToolConf (σ α : Type) where
  procs : ℕ
  tools : ℕ
  build : MsgBuild
  stack : StackCalls σ α

/-- What a tool is about: it has filled the message `m` with `req` in its call `call`, for the process `proc`. -/
structure ToolRequest (α : Type) where
  proc : ℕ
  m : ℕ
  call : ℕ
  req : FfMsg α

/-- What a tool is doing. -/
inductive ToolPhase (α : Type) where
  | idle
  | holding (r : ToolRequest α)
  | waiting (r : ToolRequest α)

/-- A message that has been answered: for which call, and what it was before and after. -/
structure HandledMsg (α : Type) where
  call : ℕ
  req : FfMsg α
  reply : FfMsg α

structure ToolSys (σ α : Type) where
  ipc : IpcState σ α
  burst : ℕ → List ℕ
  tools : ℕ → ToolPhase α
  extras : List ℕ
  calls : ℕ
  request : ℕ → ℕ
  handled : ℕ → Option (HandledMsg α)

/-- A tool begins a call, and gets the message `m` from the pool; it sends, looks into the out-ring, or gives
up.  A process takes a burst, or handles the next message of it. -/
inductive ToolStep (α : Type) where
  | begin (t proc : ℕ) (call : ToolCall) (m : ℕ) (args : MsgArgs α) (granted : Bool)
  | send (t : ℕ)
  | recv (t : ℕ)
  | timeout (t : ℕ)
  | take (proc : ℕ)
  | handle (proc : ℕ)

namespace ToolSys

def setTool (s : ToolSys σ α) (t : ℕ) (phase : ToolPhase α) : ToolSys σ α :=
  { s with tools := Function.update s.tools t phase }

/-- What a call that has the message `m` does with it. -/
def filled (cfg : ToolConf σ α) (s : ToolSys σ α) (call : ToolCall) (m : ℕ) (granted : Bool) :
    Marshalled α :=
  call.marshal cfg.build.inet6 s.extras.length granted (s.ipc.msgs m)

/-- The first part of a call, up to the sending.
SOURCE: tools/compat/sysctl.c:33-106, tools/compat/ioctl.c:77-128, tools/compat/rtioctl.c:73-103,
tools/libnetgraph/compat.c:38-108, tools/ipfw/compat.c:35-74 -/
def beginCall (cfg : ToolConf σ α) (s : ToolSys σ α) (t proc : ℕ) (call : ToolCall) (m : ℕ)
    (args : MsgArgs α) (granted : Bool) : ToolSys σ α :=
  let f := s.filled cfg call m granted
  let msg := { f.msg with args := args }
  let ipc := { s.ipc with pool := s.ipc.pool.erase m }.setMsg m msg
  if f.send then
    { s with
      ipc := ipc
      tools := Function.update s.tools t (.holding ⟨proc, m, s.calls + 1, msg⟩)
      extras := s.extras ++ f.extra.toList
      calls := s.calls + 1
      request := Function.update s.request m (s.calls + 1) }
  else { s with ipc := ipc.release m }

/-- `ff_ipc_send`; the call ends when it fails.
SOURCE: tools/compat/ff_ipc.c:133-159 -/
def sendCall (cfg : ToolConf σ α) (s : ToolSys σ α) (t : ℕ) : ToolSys σ α :=
  match s.tools t with
  | .holding r =>
    match if r.proc < cfg.procs then s.ipc.enqueue r.proc 0 r.m else none with
    | some ipc => { s with ipc := ipc }.setTool t (.waiting r)
    | none => { s with ipc := s.ipc.release r.m }.setTool t .idle
  | _ => s

/-- The message that a waiting tool finds in the out-ring of the type that its message has.
SOURCE: tools/compat/ff_ipc.c:161-192 -/
def received (cfg : ToolConf σ α) (s : ToolSys σ α) (r : ToolRequest α) :
    Option (IpcState σ α × ℕ) :=
  let type := (s.ipc.msgs r.m).msg_type
  if r.proc < cfg.procs ∧ FF_UNKNOWN < type ∧ type < FF_MSG_NUM then s.ipc.dequeue r.proc type
  else none

/-- A turn of the loop of a call that waits: a message is given back, and the call ends if it is its own.
SOURCE: tools/compat/sysctl.c:114-142, tools/compat/ioctl.c:137-166, tools/compat/rtioctl.c:112-136 -/
def recvCall (cfg : ToolConf σ α) (s : ToolSys σ α) (t : ℕ) : ToolSys σ α :=
  match s.tools t with
  | .waiting r =>
    match s.received cfg r with
    | none => s
    | some (ipc, m) =>
      let s := { s with ipc := ipc.release m }
      if m = r.m then s.setTool t .idle else s
  | _ => s

/-- `ff_ipc_recv` has found nothing in all its attempts.  The call ends, and `knictl` gives its message back.
SOURCE: tools/compat/sysctl.c:118-122, tools/knictl/knictl.c:71-76 -/
def timeoutCall (s : ToolSys σ α) (t : ℕ) : ToolSys σ α :=
  match s.tools t with
  | .waiting r =>
    let s := s.setTool t .idle
    if r.req.msg_type = FF_KNICTL then { s with ipc := s.ipc.release r.m } else s
  | _ => s

/-- `process_msg_ring` takes its burst. -/
def takeBurst (s : ToolSys σ α) (proc : ℕ) : ToolSys σ α :=
  if s.burst proc = [] then
    let ring := Function.update s.ipc.ring proc
      (Function.update (s.ipc.ring proc) 0 ((s.ipc.ring proc 0).drop MAX_PKT_BURST))
    { s with
      ipc := { s.ipc with ring := ring }
      burst := Function.update s.burst proc ((s.ipc.ring proc 0).take MAX_PKT_BURST) }
  else s

/-- `process_msg_ring` handles the next message. -/
def handleNext (cfg : ToolConf σ α) (s : ToolSys σ α) (proc : ℕ) : ToolSys σ α :=
  match s.burst proc with
  | [] => s
  | m :: ms =>
    match handleMsg cfg.build cfg.stack proc s.ipc m with
    | none => s
    | some ipc =>
      { s with
        ipc := ipc
        burst := Function.update s.burst proc ms
        handled := Function.update s.handled m
          (some ⟨s.request m, s.ipc.msgs m, (answerMsg cfg.build cfg.stack s.ipc m).msgs m⟩) }

/-- A step of the system. -/
def step (cfg : ToolConf σ α) (s : ToolSys σ α) : ToolStep α → ToolSys σ α
  | .begin t proc call m args granted =>
    match s.tools t with
    | .idle =>
      if t < cfg.tools ∧ ¬call.invalid ∧ m ∈ s.ipc.pool then
        s.beginCall cfg t proc call m args granted
      else s
    | _ => s
  | .send t => if t < cfg.tools then s.sendCall cfg t else s
  | .recv t => if t < cfg.tools then s.recvCall cfg t else s
  | .timeout t => if t < cfg.tools then s.timeoutCall t else s
  | .take proc => if proc < cfg.procs then s.takeBurst proc else s
  | .handle proc => if proc < cfg.procs then s.handleNext cfg proc else s

/-- After `init_msg_ring`: the messages `objs` are in the pool, and nothing else has happened.
SOURCE: lib/ff_dpdk_if.c:533-574 -/
def init (objs : List ℕ) (msgs : ℕ → FfMsg α) (stack : σ) (top : TopArgs) (traffic : TrafficArgs)
    (knictl_action : ℤ) : ToolSys σ α :=
  { ipc :=
      { msgs := fun m => ffMsgInit m (msgs m)
        ring := fun _ _ => []
        pool := objs
        freed := []
        stack := stack
        top := top
        traffic := traffic
        knictl_action := knictl_action }
    burst := fun _ => []
    tools := fun _ => .idle
    extras := []
    calls := 0
    request := fun _ => 0
    handled := fun _ => none }

end ToolSys

end FStack.Model
