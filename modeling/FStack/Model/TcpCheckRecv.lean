import Mathlib.Data.List.Basic
import Mathlib.Algebra.Order.Ring.Int

/-!
# Receiving one message

The two functions `mt_tcp_check_recv` (`adapter/micro_thread/mt_api.cpp`) receive until a checker of the caller says
how long the message is and so much is there.  One has the buffer of the caller, the other a buffer of its own that
grows, and remembers a length that the checker has detected.

What arrives in a pass is an input: how much of what the peer sent, at what time.  A receive takes no more than there
is space for.  The checker may keep a state.
-/

set_option autoImplicit false

namespace FStack.Model

/-- What a pass of the loop meets: the clock, and how many bytes have arrived; no byte arrives when the peer has
closed the connection. -/
structure RecvPass where
  clock : ℕ
  size : ℕ
deriving DecidableEq, Repr

namespace RecvPass

/-- `cost_time > (utime64_t)timeout`.
SOURCE: mt_api.cpp:156-162, 762-768 -/
def late (pass : RecvPass) (start_ms : ℕ) (timeout : ℤ) : Bool :=
  timeout % 2 ^ 64 < ((pass.clock : ℤ) - start_ms) % 2 ^ 64

/-- What `MtFrame::recv` puts into a space: nothing if the peer has closed the connection.  It is an error if there is
no space, and, after the time limit, if the peer has sent all and keeps the connection.
SOURCE: micro_thread.cpp:1269-1324 -/
def recv (pass : RecvPass) (rest : List UInt8) (space : ℤ) : Option (List UInt8) :=
  if space < 1 then none
  else if pass.size = 0 then some []
  else if rest = [] then none
  else some (rest.take (min pass.size space.toNat))

end RecvPass

variable {σ : Type}

/-! ## With the buffer of the caller -/

/-- The function with `rcv_buf`: what the peer sends and has not been received, what is in the buffer, the state of
`func`, the parameter `len`, and what was returned. -/
structure FixedRecv (σ : Type) where
  rest : List UInt8
  buf : List UInt8
  ctx : σ
  len : ℤ
  ret : Option ℤ
deriving DecidableEq, Repr

namespace FixedRecv

/-- The start of the function. -/
def init (msg : List UInt8) (ctx : σ) (len : ℤ) : FixedRecv σ := ⟨msg, [], ctx, len, none⟩

/-- The space that a receive is given. -/
def space (s : FixedRecv σ) : ℤ := s.len - s.buf.length

/-- A pass of the loop.
SOURCE: mt_api.cpp:154-206 -/
def step (func : σ → List UInt8 → ℤ × σ) (start_ms : ℕ) (timeout : ℤ) (s : FixedRecv σ) (pass : RecvPass) :
    FixedRecv σ :=
  if s.ret.isSome then s
  else if pass.late start_ms timeout then { s with ret := some (-3) }
  else
    match pass.recv s.rest s.space with
    | none => { s with ret := some (-3) }
    | some [] => { s with len := s.buf.length, ret := some (-7) }
    | some got =>
      let buf := s.buf ++ got
      let (rc, ctx) := func s.ctx buf
      let s : FixedRecv σ := { s with rest := s.rest.drop got.length, buf := buf, ctx := ctx }
      if rc < 0 then { s with ret := some (-5) }
      else if rc = 0 then if s.len = buf.length then { s with ret := some (-6) } else s
      else if rc > buf.length then s
      else { s with len := rc, ret := some 0 }

end FixedRecv

/-! ## With a buffer that grows -/

/-- `BUF_ALIGN_SIZE` of an `int`.
SOURCE: mt_api.cpp:664-665 -/
def bufAlignSize (x : ℤ) : ℤ := ((x + 4095) / 4096 * 4096).bmod (2 ^ 32)

/-- `ScopedBuf::Alloc` of a buffer of `len_` bytes: its length afterwards, and what is returned.  There is memory for
every length that an `int` holds; a negative length is a `size_t` that `realloc` refuses.
SOURCE: mt_api.cpp:675-704 -/
def scopedBufAlloc (len_ len : ℤ) : ℤ × ℤ :=
  if len < len_ then (len_, -1)
  else
    let len := if len = 0 then 4096 else len
    if len_ = len then (len_, 0)
    else
      let len_ := if bufAlignSize len = 0 then 4096 else bufAlignSize len
      if len_ < 0 then (len_, -2) else (len_, 0)

/-- The function with a `ScopedBuf`: what the peer sends and has not been received, what is in the buffer and its
length `len_`, the state of `check_func`, `msg_len_detected`, `pkg_len`, the parameters `len` and `rcv_buf`, and what
was returned. -/
structure GrowRecv (σ : Type) where
  rest : List UInt8
  buf : List UInt8
  size : ℤ
  ctx : σ
  msg_len_detected : Bool
  pkg_len : ℤ
  len : ℤ
  keep : Bool
  rcv_buf : Option (List UInt8)
  ret : Option ℤ
deriving DecidableEq, Repr

/-- What a checker answers: the length, `msg_len_detected`, and its state. -/
structure CheckAnswer (σ : Type) where
  rc : ℤ
  detected : Bool
  ctx : σ

/-- `MtFuncTcpMsgChecker`: it is given its state, the bytes, whether the connection is closed, and
`msg_len_detected`. -/
abbrev MsgChecker (σ : Type) := σ → List UInt8 → Bool → Bool → CheckAnswer σ

namespace GrowRecv

/-- The start of the function.
SOURCE: mt_api.cpp:741-758 -/
def init (msg : List UInt8) (ctx : σ) (len : ℤ) (keep : Bool) : GrowRecv σ :=
  let (size, ret) := scopedBufAlloc 0 len
  ⟨msg, [], size, ctx, false, 0, len, keep, none, if ret ≠ 0 then some (-11) else none⟩

/-- The space that a receive is given. -/
def space (s : GrowRecv σ) : ℤ := s.size - s.buf.length

/-- The loop is left: the caller gets the buffer if it asked for it.
SOURCE: mt_api.cpp:706-713, 859-861 -/
def finish (s : GrowRecv σ) (len : ℤ) : GrowRecv σ :=
  { s with len := len, rcv_buf := if s.keep then some s.buf else s.rcv_buf, ret := some 0 }

/-- The buffer grows to a length.
SOURCE: mt_api.cpp:819-825, 836-842 -/
def grow (s : GrowRecv σ) (len : ℤ) : GrowRecv σ :=
  let (size, ret) := scopedBufAlloc s.size len
  { s with size := size, ret := if ret ≠ 0 then some (-11) else none }

/-- The checker is asked, unless it has detected another length.
SOURCE: mt_api.cpp:794-806 -/
def check (check_func : MsgChecker σ) (s : GrowRecv σ) : GrowRecv σ × ℤ :=
  if !s.msg_len_detected || s.buf.length = s.pkg_len then
    let answer := check_func s.ctx s.buf false s.msg_len_detected
    ({ s with
        ctx := answer.ctx
        msg_len_detected := answer.detected
        pkg_len := if answer.detected then answer.rc else s.pkg_len }, answer.rc)
  else (s, s.pkg_len)

/-- What follows from the length that the checker gave.
SOURCE: mt_api.cpp:808-854 -/
def goOn (s : GrowRecv σ) (rc : ℤ) : GrowRecv σ :=
  if rc < 0 then { s with ret := some (-5) }
  else if rc = 0 then
    if s.size > s.buf.length then s else s.grow ((2 * s.size).bmod (2 ^ 32))
  else if rc > s.buf.length then
    if s.size > s.buf.length then s else s.grow rc
  else if rc = s.buf.length then s.finish rc
  else { s with ret := some (-5) }

/-- The peer has closed the connection.
SOURCE: mt_api.cpp:775-792 -/
def closed (check_func : MsgChecker σ) (s : GrowRecv σ) : GrowRecv σ :=
  if s.buf = [] then { s with ret := some (-7) }
  else
    let answer := check_func s.ctx s.buf true s.msg_len_detected
    let s := { s with ctx := answer.ctx, msg_len_detected := answer.detected }
    if answer.rc ≠ s.buf.length then { s with ret := some (-7) } else s.finish s.buf.length

/-- What has arrived is put into the buffer. -/
def receive (s : GrowRecv σ) (got : List UInt8) : GrowRecv σ :=
  { s with rest := s.rest.drop got.length, buf := s.buf ++ got }

/-- A pass of the loop.
SOURCE: mt_api.cpp:760-857 -/
def step (check_func : MsgChecker σ) (start_ms : ℕ) (timeout : ℤ) (s : GrowRecv σ) (pass : RecvPass) :
    GrowRecv σ :=
  if s.ret.isSome then s
  else if pass.late start_ms timeout then { s with ret := some (-3) }
  else
    match pass.recv s.rest s.space with
    | none => { s with ret := some (-3) }
    | some [] => s.closed check_func
    | some got =>
      let (s, rc) := (s.receive got).check check_func
      s.goOn rc

end GrowRecv

end FStack.Model
