import Mathlib.Data.Finset.Basic

/-!
# A handler and its calls of `SendRecv`

`CNetHandler::SendRecv` (`adapter/micro_thread/mt_net.cpp`) waits up to three times: for the connection, until
the request is sent, and for the response.  Meanwhile the link wakes the handler, hands it a response that
carries its session id, or fails.  A `CNetHelper` keeps one handler for all its calls.

The model has one handler, the session hash with the keys of all handlers, and the lists of the links in which
the handler is.  Beside these it records what was dispatched to the handler in the current call, and whether a
link failed in it.  A step `resume` is the thread running on after a wait, be it for a wake-up or for a timeout.
-/

set_option autoImplicit false

namespace FStack.Model

/-- The fields that `HashCmp` compares; the connection type of a `CNetHelper` is always `TYPE_CONN_SESSION`.
SOURCE: mt_net.cpp:598-623 -/
structure SessionKey where
  dest : ℕ
  udp : Bool
  sid : ℕ
deriving DecidableEq, Repr

/-- The lists of a `CSockLink`.
SOURCE: mt_net.h:271-276 -/
inductive LinkList where
  | idle
  | conn
  | send
  | recv
deriving DecidableEq, Repr

/-- Where the thread of the handler is: in no call, or in one of its waits. -/
inductive CallPhase where
  | none
  | connect
  | send
  | recv
deriving DecidableEq, Repr

/-- SOURCE: mt_net_api.h:38-54 -/
inductive RcType where
  | success
  | errSocket
  | sendFail
  | recvFail
  | connectFail
  | checkPkgFail
  | remoteClosed
  | invalidParam
  | memError
  | conflictSid
  | kqueueError
deriving DecidableEq, Repr

/-- A handler: its fields, the entries of the session hash (`true` is this handler), the lists of links in which
it is, whether its thread was woken, and the messages and failures of the current call. -/
structure NetHandler where
  key : SessionKey
  rsp_buff : Option (List UInt8) := none
  err_no : RcType := .success
  in_session : Bool := false
  in_list : Option LinkList := none
  conn : Option ℕ := none
  req_len : ℕ := 0
  session_hash : List (Bool × SessionKey) := []
  places : List (ℕ × LinkList) := []
  phase : CallPhase := .none
  woken : Bool := false
  dispatched : List (ℕ × List UInt8) := []
  failed : Bool := false
deriving DecidableEq, Repr

/-- What a call meets before its first wait, or after the wait for the connection: whether the socket is there
and connected, and what `SendData` returns (`none` is negative). -/
structure SendAnswer where
  opened : Bool
  connected : Bool
  sent : Option ℕ
deriving DecidableEq, Repr

/-- What happens: a call begins, with its key, the length of its request, whether it has a callback, and the link
that it gets; its thread goes on; a link dispatches a message, is connected, sends bytes of the request, or is
destroyed with an error; another handler is registered, or no more. -/
inductive SessionStep where
  | call (key : SessionKey) (len : ℕ) (callback : Bool) (link : Option ℕ) (answer : SendAnswer)
  | resume (answer : SendAnswer)
  | dispatch (key : SessionKey) (message : List UInt8)
  | connected (link : ℕ)
  | sent (link : ℕ) (bytes : ℕ)
  | destroy (link : ℕ) (errno : RcType)
  | regist (key : SessionKey)
  | unregist (key : SessionKey)
deriving DecidableEq, Repr

namespace NetHandler

/-- A handler as `Reset` leaves it.
SOURCE: mt_net.cpp:179-209 -/
def init : NetHandler := { key := ⟨0, false, 0⟩ }

/-- SOURCE: mt_net.cpp:547-583 -/
def detachConn (h : NetHandler) : NetHandler :=
  match h.conn, h.in_list with
  | some link, some list => { h with in_list := none, places := h.places.erase (link, list) }
  | _, _ => h

/-- `SwitchToConn`, `SwitchToSend`, `SwitchToRecv` and `SwitchToIdle`.
SOURCE: mt_net.cpp:487-545 -/
def switchTo (h : NetHandler) (list : LinkList) : NetHandler :=
  match h.conn with
  | none => h
  | some link =>
    let h := h.detachConn
    { h with in_list := some list, places := h.places ++ [(link, list)] }

/-- `Link`.
SOURCE: mt_net.cpp:472-476 -/
def link (h : NetHandler) (conn : ℕ) : NetHandler := { h with conn := some conn }.switchTo .idle

/-- `Unlink`.
SOURCE: mt_net.cpp:478-485 -/
def unlink (h : NetHandler) : NetHandler := { h.detachConn with conn := none }

/-- `FindNetItem`: the first entry with the key.
SOURCE: mt_net.cpp:1599-1607 -/
def findNetItem (h : NetHandler) (key : SessionKey) : Option (Bool × SessionKey) :=
  h.session_hash.find? (·.2 = key)

/-- `RemoveNetItem`.
SOURCE: mt_net.cpp:1625-1634 -/
def removeNetItem (h : NetHandler) (key : SessionKey) : NetHandler :=
  match h.findNetItem key with
  | none => h
  | some item => { h with session_hash := h.session_hash.erase item }

/-- `UnRegistSession`.
SOURCE: mt_net.cpp:640-647 -/
def unRegistSession (h : NetHandler) : NetHandler :=
  if h.in_session then { h.removeNetItem h.key with in_session := false } else h

/-- The end of `SendRecv`, and what it returns.
SOURCE: mt_net.cpp:451-459 -/
def exit (h : NetHandler) (ret : RcType) : NetHandler × Option RcType :=
  ({ h.unlink.unRegistSession with phase := .none, woken := false }, some ret)

/-- The thread sleeps in one of the lists of its link. -/
def sleep (h : NetHandler) (list : LinkList) (phase : CallPhase) : NetHandler × Option RcType :=
  ({ h.switchTo list with phase := phase, woken := false }, none)

/-- `WaitRecv` until the thread sleeps.
SOURCE: mt_net.cpp:370-390 -/
def waitRecv (h : NetHandler) : NetHandler × Option RcType :=
  match h.conn with
  | none => h.exit .memError
  | some _ => h.sleep .recv .recv

/-- `WaitSend` until the thread sleeps.
SOURCE: mt_net.cpp:322-350 -/
def waitSend (h : NetHandler) (sent : Option ℕ) : NetHandler × Option RcType :=
  match h.conn, sent with
  | none, _ => h.exit .memError
  | some _, none => h.exit .sendFail
  | some _, some sent =>
    let h := { h with req_len := h.req_len - sent }
    if h.req_len = 0 then h.waitRecv else h.sleep .send .send

/-- `SendRecv` until the thread sleeps: `CheckParams`, `GetConnLink` and `WaitConnect`.  An address of 0 is
invalid.
SOURCE: mt_net.cpp:218-304, 399-428 -/
def call (h : NetHandler) (key : SessionKey) (len : ℕ) (callback : Bool) (conn : Option ℕ)
    (answer : SendAnswer) : NetHandler × Option RcType :=
  let h := { h with key := key, req_len := len, dispatched := [], failed := false }
  if len = 0 ∨ key.dest = 0 ∨ callback = false ∨ key.sid = 0 then h.exit .invalidParam
  else if (h.findNetItem key).isSome then h.exit .conflictSid
  else
    let h := { h with session_hash := h.session_hash ++ [(true, key)], in_session := true }
    match conn with
    | none => h.exit .memError
    | some conn =>
      let h := h.link conn
      if !answer.opened then h.exit .errSocket
      else if answer.connected then h.waitSend answer.sent
      else h.sleep .conn .connect

/-- `SendRecv` after a wait.
SOURCE: mt_net.cpp:306-320, 352-367, 391-459 -/
def resume (h : NetHandler) (answer : SendAnswer) : NetHandler × Option RcType :=
  match h.phase with
  | .none => (h, none)
  | .connect =>
    let h := h.switchTo .idle
    if h.err_no ≠ .success then h.exit h.err_no
    else if answer.connected then h.waitSend answer.sent
    else h.exit .connectFail
  | .send =>
    let h := h.switchTo .idle
    if h.err_no ≠ .success then h.exit h.err_no
    else if h.req_len = 0 then h.waitRecv
    else h.exit .sendFail
  | .recv =>
    let h := h.switchTo .idle
    match h.rsp_buff with
    | some _ => h.exit .success
    | none => h.exit .recvFail

/-- A message, which is not empty, is handed to the handler if the session is found to be its own.
SOURCE: mt_net.cpp:1183-1274, 1276-1350 -/
def dispatch (h : NetHandler) (key : SessionKey) (message : List UInt8) : NetHandler :=
  match h.findNetItem key with
  | some (true, _) =>
    let h := h.switchTo .idle
    { h with
      rsp_buff := some message
      woken := true
      dispatched := h.dispatched ++ [(key.sid, message)] }
  | _ => h

/-- `OutputNotify` when the connection is made.
SOURCE: mt_net.cpp:1402-1414 -/
def connected (h : NetHandler) (conn : ℕ) : NetHandler :=
  if (conn, .conn) ∈ h.places then { h.switchTo .idle with woken := true } else h

/-- `SendCacheTcp` takes bytes of the request; `SendCacheUdp` sends it, or finds nothing to send, and leaves its
length.
SOURCE: mt_net.cpp:971-1022, 1061-1075 -/
def sent (h : NetHandler) (conn bytes : ℕ) : NetHandler :=
  if (conn, .send) ∈ h.places then
    let left := if h.key.udp then h.req_len else h.req_len - bytes
    let h := { h with req_len := left }
    if h.key.udp ∨ left = 0 then { h.switchTo .idle with woken := true } else h
  else h

/-- `Destroy` of a link: `NotifyAll`, after which the lists of the link are empty.
SOURCE: mt_net.cpp:701-768 -/
def destroy (h : NetHandler) (conn : ℕ) (errno : RcType) : NetHandler :=
  if h.places.any (·.1 = conn) then
    let h :=
      if errno = .success then { h with woken := true }
      else { h with err_no := errno, failed := true, woken := true }
    { h.unlink with places := h.unlink.places.filter (·.1 ≠ conn) }
  else h

/-- A step, and what a call returns that ends with it. -/
def step (h : NetHandler) : SessionStep → NetHandler × Option RcType
  | .call key len callback link answer =>
    match h.phase with
    | .none => h.call key len callback link answer
    | _ => (h, none)
  | .resume answer => h.resume answer
  | .dispatch key message => (if message = [] then h else h.dispatch key message, none)
  | .connected link => (h.connected link, none)
  | .sent link bytes => (h.sent link bytes, none)
  | .destroy link errno => (h.destroy link errno, none)
  | .regist key =>
    (if (h.findNetItem key).isSome then h
      else { h with session_hash := h.session_hash ++ [(false, key)] }, none)
  | .unregist key => (if (false, key) ∈ h.session_hash then h.removeNetItem key else h, none)

end NetHandler

end FStack.Model
