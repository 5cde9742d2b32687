import FStack.Model.BuildLimits
import Mathlib.Data.Int.Notation
import Mathlib.Logic.Function.Basic

/-!
# Messages of the management tools

A tool takes a `struct ff_msg` from `message_pool`, puts it into the in-ring of a process, and waits for it in
the out-ring of the type of its request (`lib/ff_msg.h`).  `handle_msg` answers a message and puts it into the
out-ring (`lib/ff_dpdk_if.c`).

What the stack does with a request is given by `StackCalls`, on a state `σ` of the stack and on `α`, the
members of the union that are handed to it together with what their pointers lead to.
-/

set_option autoImplicit false

namespace FStack.Model

/-! ## Messages -/

/-- SOURCE: lib/ff_msg.h:36-53 -/
def FF_UNKNOWN : ℕ := 0
def FF_SYSCTL : ℕ := 1
def FF_IOCTL : ℕ := 2
def FF_IOCTL6 : ℕ := 3
def FF_ROUTE : ℕ := 4
def FF_TOP : ℕ := 5
def FF_NGCTL : ℕ := 6
def FF_IPFW_CTL : ℕ := 7
def FF_TRAFFIC : ℕ := 8
def FF_KNICTL : ℕ := 9
def FF_MSG_NUM : ℕ := 10

/-- SOURCE: lib/ff_msg.h:131 -/
def MAX_MSG_BUF_SIZE : ℕ := 10240

/-- `sizeof(struct ff_msg)`: 88 bytes, aligned to a cache line. -/
def SIZEOF_FF_MSG : ℕ := 128

/-- The length of the buffer behind a message. -/
def MSG_BUF_LEN : ℕ := MAX_MSG_BUF_SIZE - SIZEOF_FF_MSG

/-- A pointer into the buffer behind a message, or into a buffer of `rte_malloc`. -/
inductive MsgPtr where
  | embedded (msg off : ℕ)
  | extra (buf off : ℕ)
deriving DecidableEq, Repr

structure TopArgs where
  loops : ℕ
  idle_tsc : ℕ
  work_tsc : ℕ
  sys_tsc : ℕ
  usr_tsc : ℕ

structure TrafficArgs where
  rx_packets : ℕ
  rx_bytes : ℕ
  tx_packets : ℕ
  tx_bytes : ℕ
  rx_dropped : ℕ
  tx_dropped : ℕ

/-- The union in a message, with its members side by side. -/
structure MsgArgs (α : Type) where
  stack : α
  ngctl_ret : ℤ
  ipfw_cmd : ℤ
  top : TopArgs
  traffic : TrafficArgs
  kni_cmd : ℤ
  kni_action : ℤ

/-- SOURCE: lib/ff_msg.h:133-157 -/
structure FfMsg (α : Type) where
  msg_type : ℕ
  result : ℤ
  buf_len : ℕ
  buf_addr : MsgPtr
  original_buf : Option MsgPtr
  original_buf_len : ℕ
  args : MsgArgs α

/-- `ff_msg_init`, of the message `m`.
SOURCE: lib/ff_dpdk_if.c:520-531 -/
def ffMsgInit {α : Type} (m : ℕ) (msg : FfMsg α) : FfMsg α :=
  { msg with
    msg_type := FF_UNKNOWN
    buf_addr := .embedded m 0
    buf_len := MSG_BUF_LEN
    original_buf := none
    original_buf_len := 0 }

/-! ## The pool and the rings -/

/-- SOURCE: lib/ff_memory.h:38 -/
def MSG_RING_SIZE : ℕ := 32

/-- A ring of `MSG_RING_SIZE` slots holds one message less.
SOURCE: dpdk/lib/ring/rte_ring.c:220-234 -/
def MSG_RING_CAPACITY : ℕ := MSG_RING_SIZE - 1

/-- The messages, the rings of each process by their index, the pool, what `rte_free` was called with, and
what the server has besides. -/
structure IpcState (σ α : Type) where
  msgs : ℕ → FfMsg α
  ring : ℕ → ℕ → List ℕ
  pool : List ℕ
  freed : List MsgPtr
  stack : σ
  top : TopArgs
  traffic : TrafficArgs
  knictl_action : ℤ

variable {σ α : Type}

def IpcState.setMsg (st : IpcState σ α) (m : ℕ) (msg : FfMsg α) : IpcState σ α :=
  { st with msgs := Function.update st.msgs m msg }

/-- `rte_ring_enqueue`; `none` when the ring is full. -/
def IpcState.enqueue (st : IpcState σ α) (proc index m : ℕ) : Option (IpcState σ α) :=
  if (st.ring proc index).length < MSG_RING_CAPACITY then
    some { st with
      ring := Function.update st.ring proc
        (Function.update (st.ring proc) index (st.ring proc index ++ [m])) }
  else none

/-- `rte_ring_dequeue`. -/
def IpcState.dequeue (st : IpcState σ α) (proc index : ℕ) : Option (IpcState σ α × ℕ) :=
  match st.ring proc index with
  | [] => none
  | m :: ms =>
    some ({ st with ring := Function.update st.ring proc (Function.update (st.ring proc) index ms) }, m)

/-- How a message is given back, by a tool or by the server.
SOURCE: tools/compat/ff_ipc.c:113-131, lib/ff_dpdk_if.c:2101-2110 -/
def IpcState.release (st : IpcState σ α) (m : ℕ) : IpcState σ α :=
  let msg := st.msgs m
  match msg.original_buf with
  | some original =>
    { st.setMsg m { msg with
        buf_addr := original, buf_len := msg.original_buf_len, original_buf := none } with
      freed := st.freed ++ [msg.buf_addr]
      pool := m :: st.pool }
  | none => { st with pool := m :: st.pool }

/-! ## What the server does -/

def ENOTSUP : ℤ := 95

/-- The sockets that a handler opens. -/
inductive MsgSocket where
  | inetDgram
  | inet6Dgram
  | inetRaw
deriving DecidableEq, Repr

/-- The functions of the stack that the handlers call, with what they return, and `errno`. -/
structure StackCalls (σ α : Type) where
  errno : σ → ℤ
  setErrno : σ → ℤ → σ
  ff_socket : σ → MsgSocket → σ × ℤ
  ff_close : σ → ℤ → σ
  ff_sysctl : σ → α → σ × α × ℤ
  ff_ioctl_freebsd : σ → ℤ → α → σ × α × ℤ
  ff_rtioctl : σ → α → σ × α × ℤ
  ff_ngctl : σ → α → σ × α × ℤ
  ff_getsockopt_freebsd : σ → ℤ → α → σ × α × ℤ
  ff_setsockopt_freebsd : σ → ℤ → α → σ × α × ℤ

/-- What the library was built with. -/
structure MsgBuild where
  inet6 : Bool
  netgraph : Bool
  ipfw : Bool
  kni : Bool

/-- `msg->result`, of a call that has returned `ret`. -/
def msgResult (c : StackCalls σ α) (stack : σ) (ret : ℤ) : ℤ :=
  if ret < 0 then c.errno stack else 0

/-- A handler that hands the union to the stack, with the value that was returned. -/
def stackMsg (c : StackCalls σ α) (call : σ → α → σ × α × ℤ) (st : IpcState σ α) (m : ℕ) :
    IpcState σ α × ℤ :=
  let msg := st.msgs m
  match call st.stack msg.args.stack with
  | (stack, args, ret) =>
    ({ st with stack := stack }.setMsg m
      { msg with args := { msg.args with stack := args }, result := msgResult c stack ret }, ret)

/-- A call of the stack on a socket that is opened for it.
SOURCE: lib/ff_dpdk_if.c:1909-1935, 1971-2006 -/
def onSocket (c : StackCalls σ α) (socket : MsgSocket) (call : ℤ → σ → α → σ × α × ℤ) (stack : σ)
    (args : α) : σ × α × ℤ :=
  match c.ff_socket stack socket with
  | (stack, fd) =>
    if fd < 0 then (stack, args, -1)
    else
      match call fd stack args with
      | (stack, args, ret) => (c.ff_close stack fd, args, ret)

/-- SOURCE: lib/ff_dpdk_if.c:1895-1907 -/
def handleSysctlMsg (c : StackCalls σ α) (st : IpcState σ α) (m : ℕ) : IpcState σ α :=
  (stackMsg c c.ff_sysctl st m).1

/-- SOURCE: lib/ff_dpdk_if.c:1909-1935 -/
def handleIoctlMsg (b : MsgBuild) (c : StackCalls σ α) (st : IpcState σ α) (m : ℕ) : IpcState σ α :=
  let socket := if b.inet6 ∧ (st.msgs m).msg_type = FF_IOCTL6 then .inet6Dgram else .inetDgram
  (stackMsg c (onSocket c socket fun fd stack => c.ff_ioctl_freebsd stack fd) st m).1

/-- SOURCE: lib/ff_dpdk_if.c:1937-1947 -/
def handleRouteMsg (c : StackCalls σ α) (st : IpcState σ α) (m : ℕ) : IpcState σ α :=
  (stackMsg c c.ff_rtioctl st m).1

/-- SOURCE: lib/ff_dpdk_if.c:1949-1954 -/
def handleTopMsg (st : IpcState σ α) (m : ℕ) : IpcState σ α :=
  let msg := st.msgs m
  st.setMsg m { msg with args := { msg.args with top := st.top }, result := 0 }

/-- SOURCE: lib/ff_dpdk_if.c:1957-1968 -/
def handleNgctlMsg (c : StackCalls σ α) (st : IpcState σ α) (m : ℕ) : IpcState σ α :=
  match stackMsg c c.ff_ngctl st m with
  | (st, ret) =>
    if ret < 0 then st
    else
      let msg := st.msgs m
      st.setMsg m { msg with args := { msg.args with ngctl_ret := ret } }

/-- SOURCE: lib/ff_dpdk_if.c:1971-2006 -/
def handleIpfwMsg (c : StackCalls σ α) (st : IpcState σ α) (m : ℕ) : IpcState σ α :=
  let cmd := (st.msgs m).args.ipfw_cmd
  let call : ℤ → σ → α → σ × α × ℤ := fun fd stack args =>
    if cmd = 0 then c.ff_getsockopt_freebsd stack fd args
    else if cmd = 1 then c.ff_setsockopt_freebsd stack fd args
    else (c.setErrno stack ENOTSUP, args, -1)
  (stackMsg c (onSocket c .inetRaw call) st m).1

/-- SOURCE: lib/ff_dpdk_if.c:2009-2014 -/
def handleTrafficMsg (st : IpcState σ α) (m : ℕ) : IpcState σ α :=
  let msg := st.msgs m
  st.setMsg m { msg with args := { msg.args with traffic := st.traffic }, result := 0 }

/-- SOURCE: lib/ff_dpdk_if.c:2022-2051 -/
def handleKnictlMsg (st : IpcState σ α) (m : ℕ) : IpcState σ α :=
  let msg := st.msgs m
  if msg.args.kni_cmd = 1 then
    if msg.args.kni_action = 0 ∨ msg.args.kni_action = 1 ∨ msg.args.kni_action = 2 then
      { st with knictl_action := msg.args.kni_action }.setMsg m { msg with result := 0 }
    else st.setMsg m { msg with result := -1 }
  else if msg.args.kni_cmd = 0 then
    st.setMsg m { msg with args := { msg.args with kni_action := st.knictl_action } }
  else st.setMsg m { msg with result := -2 }

/-- SOURCE: lib/ff_dpdk_if.c:2054-2058 -/
def handleDefaultMsg (st : IpcState σ α) (m : ℕ) : IpcState σ α :=
  st.setMsg m { st.msgs m with result := ENOTSUP }

/-- The `switch` of `handle_msg`.
SOURCE: lib/ff_dpdk_if.c:2063-2100 -/
def answerMsg (b : MsgBuild) (c : StackCalls σ α) (st : IpcState σ α) (m : ℕ) : IpcState σ α :=
  let type := (st.msgs m).msg_type
  if type = FF_SYSCTL then handleSysctlMsg c st m
  else if type = FF_IOCTL ∨ b.inet6 ∧ type = FF_IOCTL6 then handleIoctlMsg b c st m
  else if type = FF_ROUTE then handleRouteMsg c st m
  else if type = FF_TOP then handleTopMsg st m
  else if b.netgraph ∧ type = FF_NGCTL then handleNgctlMsg c st m
  else if b.ipfw ∧ type = FF_IPFW_CTL then handleIpfwMsg c st m
  else if type = FF_TRAFFIC then handleTrafficMsg st m
  else if b.kni ∧ type = FF_KNICTL then handleKnictlMsg st m
  else handleDefaultMsg st m

/-- `handle_msg`; `none` when it reads a pointer to a ring that is behind the end of `ring`.
SOURCE: lib/ff_dpdk_if.c:2060-2111 -/
def handleMsg (b : MsgBuild) (c : StackCalls σ α) (proc : ℕ) (st : IpcState σ α) (m : ℕ) :
    Option (IpcState σ α) :=
  let st := answerMsg b c st m
  let type := (st.msgs m).msg_type
  if type < FF_MSG_NUM then
    match st.enqueue proc type m with
    | some st => some st
    | none => some (st.release m)
  else none

end FStack.Model
