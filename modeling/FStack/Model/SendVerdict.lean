import FStack.Model.LinkInterest
import FStack.Model.NetSession

/-!
# What `WaitSend` reports

`CNetHandler::WaitSend` (`adapter/micro_thread/mt_net.cpp`) gives its request to `SendData`.  What is left of it
waits in the list `_wait_send` of the link, while the thread of the handler sleeps.  `OutputNotify`, and the
`SendData` of other handlers, send what waits and wake the handlers; a response wakes a handler too, and so does the
link when it is destroyed, with an error for all of them.  When its thread goes on, after it was woken or after its
timeout, `WaitSend` looks at the error of the handler and at the length that is left.

The model has the sending half of a link, the handlers that were woken and whose threads have not gone on, and the
errors of the handlers.  A handler keeps its error from one call to the next.
-/

set_option autoImplicit false

namespace FStack.Model

/-- The handlers that the loop of `SendCacheTcp` notifies.
SOURCE: mt_net.cpp:1060-1075 -/
def skipNotified : List SendHandler → ℕ → List SendHandler
  | [], _ => []
  | item :: rest, send_left =>
    let (item, skip_len) := item.skipSendPos send_left
    let notified := if item.getSendData.length = 0 then [item] else []
    if send_left - skip_len = 0 then notified else notified ++ skipNotified rest (send_left - skip_len)

/-- The handlers that the loop of `SendCacheUdp` notifies; what is left of their requests stays as it was.
SOURCE: mt_net.cpp:963-993 -/
def sendUdpNotified : List SendHandler → List WritevResult → List SendHandler
  | [], _ => []
  | item :: rest, results =>
    if item.getSendData = [] then item :: sendUdpNotified rest results
    else
      match results.head? with
      | some (.accepted _) => item :: sendUdpNotified rest results.tail
      | _ => []

/-- The bytes that the socket takes in a call of `SendCacheUdp`: first those of the handlers that wait.
SOURCE: mt_net.cpp:963-1017 -/
def sendUdpTaken (data : Option (ℕ × List UInt8)) : List SendHandler → List WritevResult → List (ℕ × UInt8)
  | [], results =>
    match data, results.head? with
    | some (id, bytes), some (.accepted sent) => if 2 ^ 31 ≤ bytes.length then [] else tagged id (bytes.take sent)
    | _, _ => []
  | item :: rest, results =>
    if item.getSendData = [] then sendUdpTaken data rest results
    else
      match results.head? with
      | some (.accepted sent) =>
        tagged item.id (item.getSendData.take sent) ++ sendUdpTaken data rest results.tail
      | _ => []

/-- A link with the handlers that send over it: its protocol, its sending half with the handlers that wait, the
handlers whose threads were woken, and the errors. -/
structure VerdictLink where
  udp : Bool
  send : SendLink
  woken : List SendHandler
  err_no : ℕ → RcType

/-- What happens: a handler, whose error is from an earlier call, sends a request; the socket is writable; a response
is handed to a handler; the link is destroyed; the thread of a handler goes on. -/
inductive VerdictStep where
  | request (data : List UInt8) (err_no : RcType) (results : List WritevResult)
  | output (results : List WritevResult)
  | dispatch (id : ℕ)
  | destroy (errno : RcType)
  | resume (id : ℕ)
deriving DecidableEq, Repr

namespace VerdictLink

/-- A link with nothing to send. -/
def init (udp : Bool) : VerdictLink := ⟨udp, SendLink.init, [], fun _ => .success⟩

/-- The bytes that the socket takes in a call of `SendCacheUdp` or `SendCacheTcp`. -/
def taken (link : VerdictLink) (data : Option (ℕ × List UInt8)) (results : List WritevResult) :
    List (ℕ × UInt8) :=
  if link.udp then sendUdpTaken data link.send.wait_send results
  else ((writev (link.send.iov data) (results.head?.getD (.failed true))).1).getD []

/-- The handlers that are notified in a call of `SendCacheUdp` or `SendCacheTcp`. -/
def notified (link : VerdictLink) (data : Option (ℕ × List UInt8)) (results : List WritevResult) :
    List SendHandler :=
  if link.udp then sendUdpNotified link.send.wait_send results
  else
    match (writev (link.send.iov data) (results.head?.getD (.failed true))).1 with
    | none => []
    | some bytes => skipNotified link.send.wait_send (bytes.length % 2 ^ 32)

/-- `SendCacheUdp` or `SendCacheTcp`, and what is returned.
SOURCE: mt_net.cpp:953-1078 -/
def sendCache (link : VerdictLink) (data : Option (ℕ × List UInt8)) (results : List WritevResult) :
    VerdictLink × ℤ :=
  let (send, ret) := link.send.sendCache link.udp data results
  ({ link with
      send := { send with written := link.send.written ++ link.taken data results }
      woken := link.woken ++ link.notified data results }, ret)

/-- `WaitSend` until the handler sleeps, and what it returns if it does not; an empty request is refused by
`CheckParams`.
SOURCE: mt_net.cpp:218-222, 322-347 -/
def waitSend (link : VerdictLink) (data : List UInt8) (err_no : RcType) (results : List WritevResult) :
    VerdictLink × Option (SendHandler × RcType) :=
  if data = [] then (link, none)
  else
    let item := SendHandler.mk link.send.count data 0
    let (sent, ret) := link.sendCache (some item.numbered) results
    let after := { sent with
      send := sent.send.waitRest data ret
      err_no := Function.update sent.err_no item.id err_no }
    if ret < 0 then (after, some (item, .sendFail))
    else if (item.skipSendPos ret.toNat).1.getSendData.length = 0 then (after, some (item, .success))
    else (after, none)

/-- `WaitSend` when the thread of a handler goes on, and what it returns.
SOURCE: mt_net.cpp:349-367 -/
def resume (link : VerdictLink) (id : ℕ) : VerdictLink × Option (SendHandler × RcType) :=
  match (link.send.wait_send ++ link.woken).find? (·.id == id) with
  | none => (link, none)
  | some item =>
    let after := { link with
      send := link.send.timeout id
      woken := link.woken.eraseP (·.id == id) }
    if link.err_no id ≠ .success then (after, some (item, link.err_no id))
    else if item.getSendData.length = 0 then (after, some (item, .success))
    else (after, some (item, .sendFail))

/-- `Destroy`: `NotifyAll` wakes the handlers that wait, and those that were woken and are still linked, with the
error of the link.
SOURCE: mt_net.cpp:701-775, 805-831 -/
def destroy (link : VerdictLink) (errno : RcType) : VerdictLink :=
  let items := link.send.wait_send ++ link.woken
  { link with
    send := { link.send with wait_send := [], closed := true }
    woken := items
    err_no := fun id => if errno ≠ .success ∧ id ∈ items.map (·.id) then errno else link.err_no id }

/-- `OutputNotify`.
SOURCE: mt_net.cpp:1396-1443 -/
def outputNotify (link : VerdictLink) (results : List WritevResult) : VerdictLink :=
  let (sent, ret) := link.sendCache none results
  if ret < 0 then sent.destroy .sendFail else sent

/-- A response is handed to a handler that still sends: it is notified, and leaves the list.
SOURCE: mt_net.cpp:1263-1269, 1321-1328 -/
def dispatch (link : VerdictLink) (id : ℕ) : VerdictLink :=
  { link with
    send := link.send.timeout id
    woken := link.woken ++ (link.send.wait_send.find? (·.id == id)).toList }

/-- A step, and what `WaitSend` returns in it, with the handler.  Over a link that was destroyed, only the threads of
its handlers go on. -/
def step (link : VerdictLink) (op : VerdictStep) : VerdictLink × Option (SendHandler × RcType) :=
  match op with
  | .resume id => link.resume id
  | .request data err_no results => if link.send.closed then (link, none) else link.waitSend data err_no results
  | .output results => (if link.send.closed then link else link.outputNotify results, none)
  | .dispatch id => (if link.send.closed then link else link.dispatch id, none)
  | .destroy errno => (if link.send.closed then link else link.destroy errno, none)

end VerdictLink

end FStack.Model
