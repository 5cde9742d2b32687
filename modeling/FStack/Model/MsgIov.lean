import Mathlib.Algebra.Order.Ring.Int

/-!
# The iovec of a message

`ff_sendmsg` and `ff_recvmsg` (`lib/ff_syscall_wrapper.c`) lend the caller's array of `struct iovec`
to the FreeBSD stack, which consumes it in place.  `linux2freebsd_msghdr` saves the array in
`msg_iov_tmp`, and `freebsd2linux_msghdr` writes it back.

The array is a function on all indices, of which the stack sees `msg_iovlen`.  What `sendit` and
`kern_recvit` do is an input: how many bytes they move, and what they answer.  Names, control messages
and flags go through other fields and buffers, and are left out.
-/

set_option autoImplicit false

namespace FStack.Model

def UIO_MAXIOV : ℕ := 1024

structure IoVec where
  iov_base : ℕ
  iov_len : ℕ
  deriving DecidableEq

/-- The caller's array and the fields of its `msghdr` that refer to it, and the two globals. -/
structure MsgIov where
  iov : ℕ → IoVec
  msg_iov : ℕ
  msg_iovlen : ℕ
  msg_iov_tmp : ℕ → IoVec
  msg_iovlen_tmp : ℕ

/-- The fields of the FreeBSD `msghdr` for the array. -/
structure BsdMsgIov where
  msg_iov : ℕ
  msg_iovlen : ℕ

/-- What `sendit` or `kern_recvit` does: the bytes it moves with `uiomove`, and its answer. -/
structure StackAnswer where
  moved : ℕ
  rc : ℤ

/-- The control message of a message to be sent: whether there is memory for it, and what
`linux2freebsd_cmsg` answers. -/
structure CmsgAnswer where
  allocated : Bool
  ret : ℤ

/-- `memcpy` of the first `n` entries of `src` to `dst`. -/
def copyIov (n : ℕ) (dst src : ℕ → IoVec) : ℕ → IoVec :=
  fun i => if i < n then src i else dst i

/-- `linux2freebsd_msghdr`, with the answer of `linux2freebsd_cmsg` if it is called.
SOURCE: lib/ff_syscall_wrapper.c:876-913 -/
def linux2freebsdMsghdr (st : MsgIov) (cmsg : Option ℤ) : MsgIov × Option BsdMsgIov :=
  let st := { st with msg_iovlen_tmp := st.msg_iovlen }
  if UIO_MAXIOV < st.msg_iovlen_tmp then (st, none)
  else
    let st := { st with msg_iov_tmp := copyIov st.msg_iovlen_tmp st.msg_iov_tmp st.iov }
    match cmsg with
    | none => (st, some ⟨st.msg_iov, st.msg_iovlen⟩)
    | some ret => if ret < 0 then (st, none) else (st, some ⟨st.msg_iov, st.msg_iovlen⟩)

/-- `freebsd2linux_msghdr`.
SOURCE: lib/ff_syscall_wrapper.c:848-874 -/
def freebsd2linuxMsghdr (st : MsgIov) (freebsd_msg : BsdMsgIov) : MsgIov :=
  let st := { st with msg_iov := freebsd_msg.msg_iov, msg_iovlen := freebsd_msg.msg_iovlen }
  { st with iov := copyIov st.msg_iovlen_tmp st.iov st.msg_iov_tmp }

/-- `uiomove` of `n` bytes, on the `left` entries from `i` on.  An entry without bytes in the low 32
bits of its length is passed over.
SOURCE: lib/ff_kern_subr.c:180-216 -/
def uiomoveIov : ℕ → ℕ → ℕ → (ℕ → IoVec) → ℕ → IoVec
  | 0, _, _, iov => iov
  | left + 1, i, n, iov =>
    let cnt := min ((iov i).iov_len % 2 ^ 32) n
    uiomoveIov left (i + 1) (n - cnt)
      (Function.update iov i ⟨(iov i).iov_base + cnt, (iov i).iov_len - cnt⟩)

/-- The stack, on the array it is given. -/
def runStack (st : MsgIov) (freebsd_msg : BsdMsgIov) (answer : StackAnswer) : MsgIov :=
  { st with iov := uiomoveIov freebsd_msg.msg_iovlen 0 answer.moved st.iov }

/-- The part of both functions from the call of `linux2freebsd_msghdr` on, with whether they
succeed.
SOURCE: lib/ff_syscall_wrapper.c:1453-1469, lib/ff_syscall_wrapper.c:1539-1554 -/
def lendIov (st : MsgIov) (cmsg : Option ℤ) (answer : StackAnswer) : MsgIov × Bool :=
  match linux2freebsdMsghdr st cmsg with
  | (st, none) => (st, false)
  | (st, some freebsd_msg) =>
    let st := runStack st freebsd_msg answer
    if answer.rc ≠ 0 then (st, false) else (freebsd2linuxMsghdr st freebsd_msg, true)

/-- `ff_sendmsg`, of a message with the control message `control`, if it has one.
SOURCE: lib/ff_syscall_wrapper.c:1430-1475 -/
def ffSendmsg (st : MsgIov) (control : Option CmsgAnswer) (answer : StackAnswer) : MsgIov × Bool :=
  match control with
  | none => lendIov st none answer
  | some c => if c.allocated = false then (st, false) else lendIov st (some c.ret) answer

/-- `ff_recvmsg`.
SOURCE: lib/ff_syscall_wrapper.c:1526-1559 -/
def ffRecvmsg (st : MsgIov) (answer : StackAnswer) : MsgIov × Bool := lendIov st none answer

/-- A call of one of the two. -/
inductive MsgCall where
  | sendmsg (control : Option CmsgAnswer) (answer : StackAnswer)
  | recvmsg (answer : StackAnswer)

def msgCall (st : MsgIov) : MsgCall → MsgIov × Bool
  | .sendmsg control answer => ffSendmsg st control answer
  | .recvmsg answer => ffRecvmsg st answer

end FStack.Model
