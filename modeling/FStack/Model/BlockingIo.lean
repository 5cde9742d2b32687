import Mathlib.Data.List.Basic
import Mathlib.Algebra.Order.Ring.Int

/-!
# Blocking calls of micro threads

`MtFrame::recvfrom`, `sendto`, `connect`, `accept`, `read`, `write`, `recv` and `send` repeat a non-blocking call until it
succeeds, fails for good, or the time is over; in between the micro thread waits in `KqueueSchedule`
(`adapter/micro_thread/micro_thread.cpp`).  They place the check of the clock, the attempt and the wait in three orders.

A round is one passage through the loop, with what it meets: how far the clock has got, what the non-blocking call returns
and leaves in `errno`, and how the wait ends.  The times of 64 bits are natural numbers; a difference of two of them is
cut to an `int`.
-/

set_option autoImplicit false

namespace FStack.Model

def EINTR : ℤ := 4

def EAGAIN : ℤ := 11

def EINVAL : ℤ := 22

def ETIME : ℤ := 62

def EISCONN : ℤ := 106

def EINPROGRESS : ℤ := 115

/-- How a wait ends: with an event; without one, when the thread is resumed `late` milliseconds after its wakeup time; or
because the descriptor could not be added, with what `errno` is then.  A thread that `NotifyThread` or
`UdpSessionNtfy::InputNotify` wakes early, without an event, returns with `ETIME` as well: it is `refused ETIME` here. -/
inductive IoWait where
  | ready (late : ℕ)
  | expired (late : ℕ)
  | refused (errno : ℤ)

/-- What a round meets.  `ahead` is how far the clock gets before it is read. -/
structure IoRound where
  ahead : ℕ
  result : ℤ
  errno : ℤ
  wait : IoWait

/-- The arguments of a call.  `data` is what is to be sent, for `write` and `send`. -/
structure IoArgs where
  fd : ℤ
  ptr : Bool
  len : ℤ
  data : List UInt8
  timeout : ℤ
  timeout_ge : -2 ^ 31 ≤ timeout
  timeout_lt : timeout < 2 ^ 31

/-- A call that is going on, or has returned with what it left in `errno`.  `results` is what the non-blocking call has
returned, and `accepted` the bytes that it has taken. -/
structure IoState where
  clock : ℕ
  send_len : ℕ
  accepted : List UInt8
  results : List ℤ
  ret : Option (ℤ × ℤ)

/-- `KqueueSchedule`: the clock after it, and `errno` when it returns `false`.
SOURCE: micro_thread.cpp:912-959, 749-768 -/
def ioSchedule (timeout : ℤ) (clock : ℕ) : IoWait → ℕ × Option ℤ
  | .ready late => (clock + late, none)
  | .expired late => ((max (clock : ℤ) (timeout + clock)).toNat + late, some ETIME)
  | .refused errno => (clock, some errno)

namespace IoState

/-- The clock is read. -/
def tick (st : IoState) (r : IoRound) : IoState := { st with clock := st.clock + r.ahead }

/-- `(int)(now - start) > timeout`. -/
def overdue (st : IoState) (start : ℕ) (timeout : ℤ) : Bool := timeout < ((st.clock : ℤ) - start).bmod (2 ^ 32)

/-- The non-blocking call is made. -/
def attempt (st : IoState) (r : IoRound) : IoState := { st with results := st.results ++ [r.result] }

def return_ (st : IoState) (n errno : ℤ) : IoState := { st with ret := some (n, errno) }

/-- The wait, and what is returned when it fails. -/
def schedule (st : IoState) (timeout : ℤ) (r : IoRound) (failure : ℤ) : IoState :=
  match ioSchedule timeout st.clock r.wait with
  | (clock, none) => { st with clock := clock }
  | (clock, some errno) => { st with clock := clock, ret := some (failure, errno) }

end IoState

/-! ## The three orders -/

/-- A round of `recvfrom` and `recv`: the clock, the wait, the attempt.
SOURCE: micro_thread.cpp:975-1018, 1282-1325 -/
def waitThenTry (timeout : ℤ) (start : ℕ) (st : IoState) (r : IoRound) : IoState :=
  let timeout := if timeout ≤ -1 then 0x7fffffff else timeout
  let st := st.tick r
  if st.overdue start timeout then st.return_ (-1) ETIME
  else
    let st := st.schedule timeout r (-2)
    if st.ret.isSome then st
    else
      let st := st.attempt r
      if r.result < 0 then
        if r.errno = EINTR then st
        else if r.errno ≠ EAGAIN then st.return_ (-3) r.errno
        else st
      else st.return_ r.result r.errno

/-- A round of `sendto`, `connect`, `accept` and `read`: the attempt, the clock, the wait.  `again` is the error after
which it is waited, and `done` the one that means success.
SOURCE: micro_thread.cpp:1035-1064, 1081-1115, 1132-1161, 1178-1207 -/
def tryThenWait (again : ℤ) (done : Option ℤ) (timeout : ℤ) (start : ℕ) (st : IoState) (r : IoRound) : IoState :=
  let st := st.attempt r
  if r.result < 0 then
    let st := st.tick r
    if st.overdue start timeout then st.return_ (-1) ETIME
    else if done = some r.errno then st.return_ 0 r.errno
    else if r.errno = EINTR then st
    else if r.errno ≠ again then st.return_ (-2) r.errno
    else st.schedule timeout r (-3)
  else st.return_ r.result r.errno

/-- A round of `write` and `send`: the clock, the attempt, the wait.
SOURCE: micro_thread.cpp:1224-1265, 1342-1383 -/
def sendAllRound (data : List UInt8) (timeout : ℤ) (start : ℕ) (st : IoState) (r : IoRound) : IoState :=
  let st := st.tick r
  if st.overdue start timeout then st.return_ (-1) ETIME
  else
    let st := st.attempt r
    if r.result < 0 then
      if r.errno = EINTR then st
      else if r.errno ≠ EAGAIN then st.return_ (-2) r.errno
      else st.schedule timeout r (-3)
    else
      let st := { st with
        accepted := st.accepted ++ (data.drop st.send_len).take r.result.toNat
        send_len := st.send_len + r.result.toNat }
      if st.send_len ≥ data.length then st.return_ data.length r.errno
      else st.schedule timeout r (-3)

/-! ## The calls -/

/-- The eight calls. -/
inductive MtIo where
  | recvfrom
  | sendto
  | connect
  | accept
  | read
  | write
  | recv
  | send
deriving DecidableEq

namespace MtIo

/-- `write` and `send` send all of their buffer. -/
def sendsAll : MtIo → Bool
  | .write | .send => true
  | _ => false

/-- The arguments are refused with `EINVAL`.
SOURCE: micro_thread.cpp:968, 1028, 1074, 1125, 1171, 1217, 1275, 1335 -/
def refuses (io : MtIo) (a : IoArgs) : Bool :=
  match io with
  | .accept => a.fd < 0
  | .write | .send => a.fd < 0 || !a.ptr || a.data.length < 1
  | _ => a.fd < 0 || !a.ptr || a.len < 1

/-- A call begins. -/
def begin_ (io : MtIo) (a : IoArgs) (start : ℕ) : IoState :=
  ⟨start, 0, [], [], if io.refuses a then some (-10, EINVAL) else none⟩

/-- A passage through the loop of each call. -/
def round (io : MtIo) (a : IoArgs) : ℕ → IoState → IoRound → IoState :=
  match io with
  | .recvfrom => waitThenTry a.timeout
  | .sendto => tryThenWait EAGAIN none a.timeout
  | .connect => tryThenWait EINPROGRESS (some EISCONN) a.timeout
  | .accept => tryThenWait EAGAIN none a.timeout
  | .read => tryThenWait EAGAIN none a.timeout
  | .write => sendAllRound a.data a.timeout
  | .recv => waitThenTry a.timeout
  | .send => sendAllRound a.data a.timeout

/-- A call that has returned meets no more rounds. -/
def step (io : MtIo) (a : IoArgs) (start : ℕ) (st : IoState) (r : IoRound) : IoState :=
  if st.ret.isSome then st else io.round a start st r

/-- The call, as far as there are rounds. -/
def run (io : MtIo) (a : IoArgs) (start : ℕ) (rounds : List IoRound) : IoState :=
  rounds.foldl (io.step a start) (io.begin_ a start)

end MtIo

end FStack.Model
