import Mathlib.Data.List.Basic
import Mathlib.Algebra.Order.Ring.Int

/-!
# Batches of requests

`mt_multi_sendrcv_ex` (`adapter/micro_thread/mt_concurrent.cpp`) takes a list of actions through three phases, each
within what is left of one time limit: the connections are opened, the requests are sent, the responses are received.
`mt_multi_open`, `mt_multi_sendto` and `mt_multi_recvfrom` are loops of one shape.  A pass goes over the actions that
have no error and are not through the phase, and calls the connection of each; the actions whose connection is not
ready wait, and if the time is not over, `mt_multi_netfd_poll` sleeps until one of them is.

The connections (`mt_connection.cpp`) are those over UDP, over a UDP session and over TCP.  What a system call
answers, and what the action says about the bytes that were received, are inputs, and so is the clock.
-/

set_option autoImplicit false

namespace FStack.Model

/-- `MULTI_STATE`.
SOURCE: mt_action.h:31-38 -/
inductive MultiState where
  | flagUndef
  | flagInit
  | flagOpen
  | flagSend
  | flagFin
deriving DecidableEq, Repr

/-- `MULTI_ERROR`.
SOURCE: mt_action.h:48-63 -/
inductive MultiError where
  | errNone
  | errSocketFail
  | errConnectFail
  | errSendFail
  | errRecvFail
  | errRecvTimeout
  | errKqueueFail
  | errFrameError
  | errPeerClose
  | errParamError
  | errMemoryError
  | errEncodeError
  | errDstAddrError
deriving DecidableEq, Repr

/-- `CONN_OBJ_TYPE`: the class of a connection.
SOURCE: mt_connection.h:38-44 -/
inductive ConnObjType where
  | connUndef
  | shortConn
  | tcpKeep
  | udpSession
deriving DecidableEq, Repr

/-- The values of `errno` that the connections look at. -/
inductive ConnErrno where
  | eintr
  | eagain
  | einprogress
  | ealready
  | eisconn
  | other
deriving DecidableEq, Repr

/-- The lengths of an `MtMsgBuf`. -/
structure MtMsgBuf where
  msg_len : ℤ
  have_snd_len : ℤ
  have_rcv_len : ℤ
deriving DecidableEq, Repr

/-- An `IMtConnection`: its class, whether `_action` and `_ntfy_obj` are set, and `_msg_buff`. -/
structure IMtConnection where
  type : ConnObjType
  action : Bool
  ntfy_obj : Bool
  msg_buff : Option MtMsgBuf
deriving DecidableEq, Repr

/-- What a connection meets in one call: what the system call returns, with `errno`; what `DoInput` of the action
returns; and over a session, the length of the message that a notification left in the buffer, if it left one. -/
structure CallAnswer where
  ret : ℤ
  errno : ConnErrno
  input : ℤ
  notified : Option ℤ
deriving DecidableEq, Repr

namespace IMtConnection

/-- `errno` says that a call is to be tried again. -/
def again (errno : ConnErrno) : Bool := errno = .eintr || errno = .eagain || errno = .einprogress

/-- `OpenCnnect`; only `TcpKeepConn` does something.
SOURCE: mt_connection.h:83, mt_connection.cpp:206-240 -/
def openCnnect (conn : IMtConnection) (answer : CallAnswer) : ℤ :=
  if conn.type ≠ .tcpKeep then 0
  else if !conn.action || conn.msg_buff.isNone then -100
  else if answer.ret < 0 then
    if answer.errno = .eisconn then 0
    else if answer.errno = .einprogress ∨ answer.errno = .ealready ∨ answer.errno = .eintr then -1
    else -2
  else 0

/-- `SendData` of `UdpShortConn` and of `UdpSessionConn`, whose parameters are there.
SOURCE: mt_connection.cpp:122-142, 643-663 -/
def sendDatagram (conn : IMtConnection) (buf : MtMsgBuf) (answer : CallAnswer) : IMtConnection × ℤ :=
  if answer.ret = -1 then
    if again answer.errno then (conn, 0) else (conn, -2)
  else ({ conn with msg_buff := some { buf with have_snd_len := answer.ret } }, answer.ret)

/-- `SendData` of `TcpKeepConn`, whose parameters are there.
SOURCE: mt_connection.cpp:287-319 -/
def sendStream (conn : IMtConnection) (buf : MtMsgBuf) (answer : CallAnswer) : IMtConnection × ℤ :=
  if answer.ret = -1 then
    if again answer.errno then (conn, 0) else (conn, -1)
  else
    let have_send_len := buf.have_snd_len + answer.ret
    ({ conn with msg_buff := some { buf with have_snd_len := have_send_len } },
      if have_send_len ≥ buf.msg_len then buf.msg_len else 0)

/-- `SendData`.
SOURCE: mt_connection.h:85, mt_connection.cpp:115-143, 280-320, 636-664 -/
def sendData (conn : IMtConnection) (answer : CallAnswer) : IMtConnection × ℤ :=
  match conn.type, conn.msg_buff with
  | .connUndef, _ => (conn, 0)
  | _, none => (conn, -100)
  | .shortConn, some buf => if conn.action then conn.sendDatagram buf answer else (conn, -100)
  | .udpSession, some buf => if conn.action && conn.ntfy_obj then conn.sendDatagram buf answer else (conn, -100)
  | .tcpKeep, some buf => if conn.action then conn.sendStream buf answer else (conn, -100)

/-- `RecvData` of `UdpShortConn`, whose parameters are there.
SOURCE: mt_connection.cpp:152-198 -/
def recvDatagram (conn : IMtConnection) (buf : MtMsgBuf) (answer : CallAnswer) : IMtConnection × ℤ :=
  if answer.ret < 0 then
    if again answer.errno then (conn, 0) else (conn, -2)
  else if answer.ret = 0 then (conn, -1)
  else
    let buf := { buf with have_rcv_len := answer.ret }
    if 0 < answer.input then
      ({ conn with msg_buff := some { buf with msg_len := answer.input } }, answer.input)
    else if answer.input = 0 then ({ conn with msg_buff := some buf }, 0)
    else if answer.input = -65535 then ({ conn with msg_buff := some { buf with have_rcv_len := 0 } }, 0)
    else ({ conn with msg_buff := some buf }, -1)

/-- `RecvData` of `TcpKeepConn`, whose parameters are there.
SOURCE: mt_connection.cpp:329-370 -/
def recvStream (conn : IMtConnection) (buf : MtMsgBuf) (answer : CallAnswer) : IMtConnection × ℤ :=
  if answer.ret < 0 then
    if again answer.errno then (conn, 0) else (conn, -2)
  else if answer.ret = 0 then (conn, -1)
  else
    let buf := { buf with have_rcv_len := buf.have_rcv_len + answer.ret }
    if 0 < answer.input then
      ({ conn with msg_buff := some { buf with msg_len := buf.have_rcv_len } }, answer.input)
    else if answer.input = 0 then ({ conn with msg_buff := some buf }, 0)
    else ({ conn with msg_buff := some buf }, -1)

/-- `RecvData` of `UdpSessionConn`, whose parameters are there: it looks at what a notification left.
SOURCE: mt_connection.cpp:673-688 -/
def recvSession (conn : IMtConnection) (buf : MtMsgBuf) (answer : CallAnswer) : IMtConnection × ℤ :=
  match answer.notified with
  | none => (conn, 0)
  | some msg_len => ({ conn with msg_buff := some { buf with msg_len := msg_len } }, msg_len)

/-- `RecvData`.
SOURCE: mt_connection.h:87, mt_connection.cpp:145-198, 322-371, 666-689 -/
def recvData (conn : IMtConnection) (answer : CallAnswer) : IMtConnection × ℤ :=
  match conn.type, conn.msg_buff with
  | .connUndef, _ => (conn, 0)
  | _, none => (conn, -100)
  | .shortConn, some buf => if conn.action then conn.recvDatagram buf answer else (conn, -100)
  | .udpSession, some buf => if conn.ntfy_obj then conn.recvSession buf answer else (conn, -100)
  | .tcpKeep, some buf => if conn.action then conn.recvStream buf answer else (conn, -100)

end IMtConnection

/-- An `IMtAction`: `_errno`, `_flag`, whether `_proto` is `MT_UDP`, and `_conn`. -/
structure IMtAction where
  errno : MultiError
  flag : MultiState
  udp : Bool
  conn : Option IMtConnection
deriving DecidableEq, Repr

/-- What a pass did with an action: the action before and after it, what the connection returned, if it was called,
and whether the action was put into `wait_list`. -/
structure Visit where
  before : IMtAction
  after : IMtAction
  ret : Option ℤ
  wait : Bool
deriving DecidableEq, Repr

namespace Visit

/-- An action that a pass leaves alone. -/
def skip (action : IMtAction) : Visit := ⟨action, action, none, false⟩

/-- `SetErrno`. -/
def setErrno (v : Visit) (errno : MultiError) : Visit := { v with after := { v.after with errno := errno } }

end Visit

/-- What a pass does with an action for what its connection returned. -/
inductive MultiVerdict where
  | mark
  | wait
  | fail (errno : MultiError)
deriving DecidableEq, Repr

/-- What `KqueueSchedule` answers: an event or the end of the time, or an error other than `ETIME`. -/
inductive PollAnswer where
  | woken
  | failed
deriving DecidableEq, Repr

/-- What the world does in a pass: what each connection meets, by the position of its action, the clock after the
scan, and what `KqueueSchedule` answers. -/
structure Round where
  answers : ℕ → CallAnswer
  clock : ℕ
  poll : PollAnswer

/-- Each action with what its connection meets. -/
def Round.calls (round : Round) (acts : List IMtAction) : List (IMtAction × CallAnswer) :=
  acts.zipIdx.map fun x => (x.1, round.answers x.2)

/-! ## A phase -/

/-- What the three loops differ in: the flag of an action that is through, the call of the connection, what is done
for its result, the error after the time limit, and what is returned at a connection that is `NULL` and after the
time limit, for whether an action was seen that was through. -/
structure Phase where
  flag : MultiState
  call : IMtConnection → CallAnswer → IMtConnection × ℤ
  verdict : ℤ → MultiVerdict
  late : MultiError
  nullRet : ℤ
  lateRet : Bool → ℤ

/-- What a pass comes to: what it did with the actions, the value of `has_open` or `has_send`, and what the function
returns if it ends. -/
structure PassEnd where
  visits : List Visit
  seen : Bool
  ret : Option ℤ
deriving DecidableEq, Repr

/-- The first waiting action without a notify object gets an error; nothing is left if there is none. -/
def ntfyNull : List Visit → Option (List Visit)
  | [] => none
  | v :: rest =>
    if v.wait && (v.after.conn.elim true fun conn => !conn.ntfy_obj) then some (v.setErrno .errFrameError :: rest)
    else (ntfyNull rest).map (v :: ·)

/-- The last waiting action gets an error. -/
def scheduleFailed : List Visit → List Visit
  | [] => []
  | v :: rest =>
    if v.wait && !rest.any (·.wait) then v.setErrno .errKqueueFail :: rest else v :: scheduleFailed rest

/-- `mt_multi_netfd_poll` on the actions that wait; what it returns is not looked at.
SOURCE: mt_concurrent.cpp:33-91 -/
def mtMultiNetfdPoll (poll : PollAnswer) (visits : List Visit) : List Visit :=
  match ntfyNull visits, poll with
  | some failed, _ => failed
  | none, .failed => scheduleFailed visits
  | none, .woken => visits

namespace Phase

/-- An action that the pass goes into: it has no error and is not through. -/
def tries (p : Phase) (action : IMtAction) : Bool := action.errno = .errNone && action.flag ≠ p.flag

/-- An action at which the pass ends, since its connection is `NULL`. -/
def stops (p : Phase) (action : IMtAction) : Bool := p.tries action && action.conn.isNone

/-- What a pass does with an action whose connection is there. -/
def visit (p : Phase) (action : IMtAction) (answer : CallAnswer) : Visit :=
  match p.tries action, action.conn with
  | true, some conn =>
    let (conn, ret) := p.call conn answer
    let action' := { action with conn := some conn }
    match p.verdict ret with
    | .mark => ⟨action, { action' with flag := p.flag }, some ret, false⟩
    | .wait => ⟨action, action', some ret, true⟩
    | .fail errno => ⟨action, { action' with errno := errno }, some ret, false⟩
  | _, _ => .skip action

/-- The scan of a pass: it ends at a connection that is `NULL`. -/
def scan (p : Phase) : List (IMtAction × CallAnswer) → List Visit
  | [] => []
  | (action, answer) :: rest =>
    if p.stops action then (Visit.skip action).setErrno .errFrameError :: rest.map fun x => .skip x.1
    else p.visit action answer :: p.scan rest

/-- One pass of the loop of `mt_multi_open`, `mt_multi_sendto` or `mt_multi_recvfrom`.
SOURCE: mt_concurrent.cpp:150-224, 226-307, 309-381 -/
def pass (p : Phase) (end_ms : ℕ) (seen : Bool) (acts : List IMtAction) (round : Round) : PassEnd :=
  let visits := p.scan (round.calls acts)
  let seen := seen || acts.any fun action => action.errno = .errNone && action.flag = p.flag
  if acts.any p.stops then ⟨visits, seen, some p.nullRet⟩
  else if round.clock > end_ms then
    ⟨visits.map fun v => if v.wait then v.setErrno p.late else v, seen, some (p.lateRet seen)⟩
  else if visits.any (·.wait) then ⟨mtMultiNetfdPoll round.poll visits, seen, none⟩
  else ⟨visits, seen, some 0⟩

end Phase

/-- `mt_multi_open`: every negative result waits.
SOURCE: mt_concurrent.cpp:150-224 -/
def mtMultiOpen : Phase where
  flag := .flagOpen
  call conn answer := (conn, conn.openCnnect answer)
  verdict ret := if ret < 0 then .wait else .mark
  late := .errConnectFail
  nullRet := -1
  lateRet has_open := if has_open then -2 else 0

/-- `mt_multi_sendto`: only -1 is an error.
SOURCE: mt_concurrent.cpp:226-307 -/
def mtMultiSendto : Phase where
  flag := .flagSend
  call conn answer := conn.sendData answer
  verdict ret := if ret = -1 then .fail .errSendFail else if ret = 0 then .wait else .mark
  late := .errSendFail
  nullRet := -2
  lateRet has_send := if has_send then 0 else -5

/-- `mt_multi_recvfrom`.
SOURCE: mt_concurrent.cpp:309-381 -/
def mtMultiRecvfrom : Phase where
  flag := .flagFin
  call conn answer := conn.recvData answer
  verdict ret := if ret < 0 then .fail .errRecvFail else if ret = 0 then .wait else .mark
  late := .errRecvTimeout
  nullRet := -2
  lateRet _ := -5

/-! ## The batch -/

/-- Where a batch is: in one of its phases, or at its end with what is returned. -/
inductive BatchStage where
  | opening
  | sending
  | receiving
  | ended (ret : ℤ)
deriving DecidableEq, Repr

/-- A run of `mt_multi_sendrcv_ex`: where it is, its actions, `has_open` or `has_send`, the time at which it started
with its time limit, and the time at which the phase ends. -/
structure Batch where
  stage : BatchStage
  acts : List IMtAction
  seen : Bool
  start_ms : ℕ
  timeout : ℤ
  end_ms : ℕ
deriving DecidableEq, Repr

namespace Batch

/-- The phase that a batch is in. -/
def phase (b : Batch) : Option Phase :=
  match b.stage with
  | .opening => some mtMultiOpen
  | .sending => some mtMultiSendto
  | .receiving => some mtMultiRecvfrom
  | .ended _ => none

/-- A phase is called with a time limit at a time.
SOURCE: mt_concurrent.cpp:152-153, 228-229, 311-312 -/
def enter (stage : BatchStage) (acts : List IMtAction) (start_ms : ℕ) (timeout : ℤ) (clock : ℕ) (limit : ℤ) :
    Batch :=
  ⟨stage, acts, false, start_ms, timeout, ((clock + limit) % 2 ^ 64).toNat⟩

/-- A phase that is called on its own. -/
def begin (stage : BatchStage) (acts : List IMtAction) (timeout : ℤ) (clock : ℕ) : Batch :=
  enter stage acts clock timeout clock timeout

/-- The time limit that is left, as an `int`.
SOURCE: mt_concurrent.cpp:403-404, 412-413 -/
def left (b : Batch) (clock : ℕ) : ℤ := (b.timeout - (clock - b.start_ms)).bmod (2 ^ 32)

/-- What `mt_multi_sendrcv_ex` does when a phase returns.
SOURCE: mt_concurrent.cpp:395-421 -/
def goOn (b : Batch) (acts : List IMtAction) (clock : ℕ) (rc : ℤ) : Batch :=
  match b.stage with
  | .opening =>
    if rc < 0 then { b with stage := .ended (-2), acts := acts }
    else enter .sending acts b.start_ms b.timeout clock (b.left clock)
  | .sending =>
    if rc < 0 then { b with stage := .ended (-3), acts := acts }
    else enter .receiving acts b.start_ms b.timeout clock (b.left clock)
  | .receiving => { b with stage := .ended (if rc < 0 then -4 else 0), acts := acts }
  | .ended _ => b

/-- What a pass of the batch comes to, if it has not ended. -/
def pass (b : Batch) (round : Round) : Option PassEnd :=
  b.phase.map fun p => p.pass b.end_ms b.seen b.acts round

/-- A pass, and when the phase ends, what follows. -/
def step (b : Batch) (round : Round) : Batch :=
  match b.pass round with
  | none => b
  | some ⟨visits, seen, none⟩ => { b with acts := visits.map (·.after), seen := seen }
  | some ⟨visits, _, some rc⟩ => b.goOn (visits.map (·.after)) round.clock rc

end Batch

/-- `mt_multi_newsock`: the sockets, as `CreateSocket` returns them, and what the function returns.
SOURCE: mt_concurrent.cpp:93-148 -/
def mtMultiNewsock (has_ok : Bool) : List IMtAction → List ℤ → List IMtAction × ℤ
  | [], _ => ([], if has_ok then 0 else -4)
  | action :: rest, socks =>
    if action.errno ≠ .errNone then
      let (acts, ret) := mtMultiNewsock has_ok rest socks
      (action :: acts, ret)
    else if action.conn.isNone then ({ action with errno := .errFrameError } :: rest, -2)
    else
      match socks with
      | [] => ({ action with errno := .errSocketFail } :: rest, -3)
      | sock :: socks =>
        if sock < 0 then ({ action with errno := .errSocketFail } :: rest, -3)
        else
          let flag : MultiState := if action.udp then .flagOpen else .flagInit
          let (acts, ret) := mtMultiNewsock true rest socks
          ({ action with flag := flag } :: acts, ret)

/-- `mt_multi_sendrcv_ex` until its first phase.
SOURCE: mt_concurrent.cpp:383-395 -/
def mtMultiSendrcvEx (acts : List IMtAction) (socks : List ℤ) (timeout : ℤ) (clock : ℕ) : Batch :=
  let (acts, rc) := mtMultiNewsock false acts socks
  if rc < 0 then { Batch.begin (.ended (-1)) acts timeout clock with acts := acts }
  else Batch.begin .opening acts timeout clock

end FStack.Model
