import FStack.Model.KqueueProxy
import FStack.Model.LinkSend

/-!
# When a link listens for write readiness

A `CSockLink` (`adapter/micro_thread/mt_net.cpp`) listens for write readiness when its socket is made, gives it
up when nothing waits to be sent, and asks for it again when a request could not be sent whole.  It has a mask
of its own, and the proxy of the kqueue has another one for the descriptor.

The model has a link with the handlers that wait in it, and the proxy.  What the socket and the kqueue answer is
an input of a step; the descriptor of the link is used by no one else.
-/

set_option autoImplicit false

namespace FStack.Model

/-- `KqueueAddObj`; `conflict` says that the descriptor has another object to notify.
SOURCE: kqueue_proxy.cpp:313-338, 490-516 -/
def KqueueProxy.kqueueAddObj (s : KqueueProxy) (env : KqEnv) (fd : BitVec 32) (events : KqEvents)
    (conflict : Bool) : KqueueProxy × Bool :=
  if (s.kqFdRefGet fd).isNone || conflict then (s, false) else s.kqueueCtrlAdd env fd events

/-- The loop of `SendCacheUdp`: the handlers that stay in the list, the answers of `sendto` that are left, and
what is returned if the loop is left.
SOURCE: mt_net.cpp:963-993 -/
def sendUdpLoop : List SendHandler → List WritevResult → List SendHandler × List WritevResult × Option ℤ
  | [], results => ([], results, none)
  | item :: rest, results =>
    if item.getSendData = [] then sendUdpLoop rest results
    else
      match results.head? with
      | none | some (.failed true) => (item :: rest, results.tail, some 0)
      | some (.failed false) => (item :: rest, results.tail, some (-2))
      | some (.accepted _) => sendUdpLoop rest results.tail

namespace SendLink

/-- `SendCacheUdp`.  A datagram of 2^31 bytes or more is refused.
SOURCE: mt_net.cpp:953-1018 -/
def sendCacheUdp (link : SendLink) (data : Option (ℕ × List UInt8)) (results : List WritevResult) :
    SendLink × ℤ :=
  let (wait_send, results, ret) := sendUdpLoop link.wait_send results
  let link := { link with wait_send := wait_send }
  match ret, data with
  | some ret, _ => (link, ret)
  | none, none => (link, 0)
  | none, some (_, bytes) =>
    match results.head? with
    | none | some (.failed true) => (link, 0)
    | some (.failed false) => (link, -2)
    | some (.accepted sent) =>
      if 2 ^ 31 ≤ bytes.length then (link, -2) else (link, int32 (min sent bytes.length : ℕ))

/-- `SendCacheUdp` or `SendCacheTcp`, with the answers of the socket. -/
def sendCache (link : SendLink) (udp : Bool) (data : Option (ℕ × List UInt8)) (results : List WritevResult) :
    SendLink × ℤ :=
  if udp then link.sendCacheUdp data results
  else link.sendCacheTcp data (results.head?.getD (.failed true))

end SendLink

/-- A `CSockLink` with the proxy of the kqueue: its protocol, its descriptor, its own mask, its state, the
handlers that wait for the connection, and those that wait to send. -/
structure InterestLink where
  udp : Bool
  fd : BitVec 32
  events : KqEvents
  connecting : Bool
  connected : Bool
  wait_connect : List ℕ
  send : SendLink
  proxy : KqueueProxy

/-- What `CreateSock` meets: the answers of `socket` and `ioctl`, whether another object is notified for the
descriptor, and what the kqueue answers. -/
structure SockAnswer where
  socket : BitVec 32
  ioctl : Bool
  conflict : Bool
  env : KqEnv

/-- What happens at a link: a handler wants to connect, or to send a request; the socket is writable, or
readable, where the handlers with a response leave their lists and the link may fail; handlers do not wait any
longer. -/
inductive InterestStep where
  | connect (id : ℕ) (answer : SockAnswer) (established : Bool)
  | send (data : List UInt8) (results : List WritevResult) (env : KqEnv)
  | output (results : List WritevResult) (env : KqEnv)
  | input (fails : Bool) (env : KqEnv) (conns sends : List ℕ)
  | timeout (conns sends : List ℕ)

namespace InterestLink

/-- A link that was just taken from the pool. -/
def init (udp : Bool) (proxy : KqueueProxy) : InterestLink :=
  ⟨udp, -1, ∅, false, false, [], SendLink.init, proxy⟩

/-- `CreateSock`, and whether the link has a socket.
SOURCE: mt_net.cpp:833-880 -/
def createSock (link : InterestLink) (answer : SockAnswer) : InterestLink × Bool :=
  if (0#32).slt link.fd then (link, true)
  else if answer.socket.slt 0 then ({ link with fd := answer.socket }, false)
  else if !answer.ioctl then ({ link with fd := -1 }, false)
  else
    let events := if link.udp then link.events else insert .write link.events
    let events := insert .read events
    let (proxy, ok) := link.proxy.kqueueAddObj answer.env answer.socket events answer.conflict
    if ok then ({ link with fd := answer.socket, events := events, proxy := proxy }, true)
    else ({ link with fd := -1, events := events, proxy := proxy }, false)

/-- `Connect`, and whether the link is connected; a call of `connect` that fails counts as one in progress.
SOURCE: mt_net.cpp:900-944 -/
def connect (link : InterestLink) (established : Bool) : InterestLink × Bool :=
  let link := { link with connected := link.connected || link.udp }
  if link.connected then (link, true)
  else if link.connecting then (link, false)
  else if established then ({ link with connected := true }, true)
  else ({ link with connecting := true }, false)

/-- `WaitConnect` until the handler sleeps.
SOURCE: mt_net.cpp:275-299 -/
def waitConnect (link : InterestLink) (id : ℕ) (answer : SockAnswer) (established : Bool) : InterestLink :=
  let (link, opened) := link.createSock answer
  if opened then
    let (link, connected) := link.connect established
    if connected then link else { link with wait_connect := link.wait_connect ++ [id] }
  else link

/-- `SendData`, and what is returned.
SOURCE: mt_net.cpp:1082-1115 -/
def sendData (link : InterestLink) (data : List UInt8) (results : List WritevResult) (env : KqEnv) :
    InterestLink × ℤ :=
  let (send, ret) := link.send.sendCache link.udp (some (link.send.count, data)) results
  if ret < int32 data.length then
    ({ link with
        send := send
        events := insert .write link.events
        proxy := (link.proxy.kqueueCtrlAdd env link.fd {.read}).1 }, ret)
  else
    ({ link with
        send := send
        events := link.events.erase .write
        proxy := (link.proxy.kqueueCtrlDel env link.fd {.write}).1 }, ret)

/-- `WaitSend` until the handler sleeps; it is called when the link is connected, with a request that is not
empty.
SOURCE: mt_net.cpp:322-347, 429-437 -/
def waitSend (link : InterestLink) (data : List UInt8) (results : List WritevResult) (env : KqEnv) :
    InterestLink :=
  if data = [] ∨ link.connected = false then link
  else
    let (link, ret) := link.sendData data results env
    { link with send := link.send.waitRest data ret }

/-- `Destroy`: the socket is closed, and no handler waits any more.
SOURCE: mt_net.cpp:718-775, 805-831 -/
def destroy (link : InterestLink) (env : KqEnv) : InterestLink :=
  { link with
    fd := -1
    wait_connect := []
    send := { link.send with wait_send := [], closed := true }
    proxy :=
      if link.fd.slt 0 then link.proxy
      else (link.proxy.kqueueCtrlDelRef env link.fd link.events false).1 }

/-- The first part of `OutputNotify`.
SOURCE: mt_net.cpp:1402-1414 -/
def connectDone (link : InterestLink) : InterestLink :=
  if link.connecting then { link with connecting := false, connected := true, wait_connect := [] } else link

/-- `OutputNotify`.
SOURCE: mt_net.cpp:1396-1443 -/
def outputNotify (link : InterestLink) (results : List WritevResult) (env : KqEnv) : InterestLink :=
  let link := link.connectDone
  let (send, ret) := link.send.sendCache link.udp none results
  let link := { link with send := send }
  if ret < 0 then link.destroy env
  else if send.wait_send = [] then
    { link with
      events := link.events.erase .write
      proxy := (link.proxy.kqueueCtrlDel env link.fd {.write}).1 }
  else link

/-- Handlers leave their lists. -/
def leave (link : InterestLink) (conns sends : List ℕ) : InterestLink :=
  { link with
    wait_connect := link.wait_connect.filter (· ∉ conns)
    send := { link.send with wait_send := link.send.wait_send.filter (·.id ∉ sends) } }

/-- A step.  Nothing happens at a link that was destroyed. -/
def step (link : InterestLink) (op : InterestStep) : InterestLink :=
  if link.send.closed then link
  else
    match op with
    | .connect id answer established => link.waitConnect id answer established
    | .send data results env => link.waitSend data results env
    | .output results env => link.outputNotify results env
    | .input fails env conns sends => if fails then link.destroy env else link.leave conns sends
    | .timeout conns sends => link.leave conns sends

end InterestLink

end FStack.Model
