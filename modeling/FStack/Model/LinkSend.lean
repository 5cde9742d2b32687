import FStack.Model.ZeroCopy

/-!
# Sending requests over a shared link

Handlers that could not send their request at once wait in the list `_wait_send` of their `CSockLink`
(`adapter/micro_thread/mt_net.cpp`).  `SendCacheTcp` gives the requests of up to 64 of them, and a new one, to one
`writev`, and then goes along the list with the number of bytes that were taken.

A request is known by a number.  A handler has its request and how much of it was sent, so that `_req_data`
points behind what was sent and `_req_len` is the length of the rest.  The socket keeps with each byte the
request it belongs to.
-/

set_option autoImplicit false

namespace FStack.Model

/-- A `CNetHandler` that sends.
SOURCE: mt_net.h:237-256 -/
structure SendHandler where
  id : ℕ
  request : List UInt8
  send_pos : ℕ
deriving DecidableEq, Repr

namespace SendHandler

/-- `GetSendData`: what is left of the request.
SOURCE: mt_net.h:226-229 -/
def getSendData (item : SendHandler) : List UInt8 := item.request.drop item.send_pos

/-- The request with its number. -/
def numbered (item : SendHandler) : ℕ × List UInt8 := (item.id, item.request)

/-- `SkipSendPos`: the handler, and the length that is skipped.
SOURCE: mt_net.cpp:462-470 -/
def skipSendPos (item : SendHandler) (len : ℕ) : SendHandler × ℕ :=
  let skip_len := if item.getSendData.length ≤ len then item.getSendData.length else len
  ({ item with send_pos := item.send_pos + skip_len }, skip_len)

end SendHandler

/-- What a call of `writev` does: how many bytes it takes at most, or an error, and whether `errno` is then
`EAGAIN` or `EINTR`. -/
inductive WritevResult where
  | accepted (bytes : ℕ)
  | failed (again : Bool)
deriving DecidableEq, Repr

/-- Bytes, each with the request that it belongs to. -/
def tagged (id : ℕ) (bytes : List UInt8) : List (ℕ × UInt8) := bytes.map fun byte => (id, byte)

/-- `writev` of the host, for which there is no hook here: the socket is the descriptor that it is given.  A length from
2^31 on is passed as a negative `int32_t`, and is refused.
SOURCE: mt_net.cpp:1031-1047 -/
def writev (iov : List (ℕ × List UInt8)) : WritevResult → Option (List (ℕ × UInt8)) × Bool
  | .failed again => (none, again)
  | .accepted bytes =>
    if ∃ entry ∈ iov, 2 ^ 31 ≤ entry.2.length then (none, false)
    else (some ((iov.flatMap fun entry => tagged entry.1 entry.2).take bytes), false)

/-- The loop of `SendCacheTcp` after the `writev`: the handlers that stay in the list, and what is left of the
number of bytes.  A handler whose request is sent is notified and leaves the list.
SOURCE: mt_net.cpp:1060-1075 -/
def skipLoop : List SendHandler → ℕ → List SendHandler × ℕ
  | [], send_left => ([], send_left)
  | item :: rest, send_left =>
    let (item, skip_len) := item.skipSendPos send_left
    let stays := if item.getSendData.length = 0 then [] else [item]
    if send_left - skip_len = 0 then (stays ++ rest, send_left - skip_len)
    else
      let (rest, send_left) := skipLoop rest (send_left - skip_len)
      (stays ++ rest, send_left)

/-- The sending half of a `CSockLink`, with what its socket was given.  `count` numbers the requests, and after
`Destroy` the link is `closed`. -/
structure SendLink where
  wait_send : List SendHandler
  written : List (ℕ × UInt8)
  count : ℕ
  closed : Bool
deriving DecidableEq, Repr

/-- What happens at a link: a handler sends a request, the socket is writable, or the handler of a request does
not wait any longer. -/
inductive SendStep where
  | request (data : List UInt8) (result : WritevResult)
  | output (result : WritevResult)
  | timeout (id : ℕ)
deriving DecidableEq, Repr

namespace SendLink

def init : SendLink := ⟨[], [], 0, false⟩

/-- The vector that `SendCacheTcp` writes.
SOURCE: mt_net.cpp:1025-1044 -/
def iov (link : SendLink) (data : Option (ℕ × List UInt8)) : List (ℕ × List UInt8) :=
  let waiting := (link.wait_send.take 64).map fun item => (item.id, item.getSendData)
  if waiting.length < 64 then waiting ++ data.toList else waiting

/-- `SendCacheTcp`: the link, and what is returned.
SOURCE: mt_net.cpp:1020-1078 -/
def sendCacheTcp (link : SendLink) (data : Option (ℕ × List UInt8)) (result : WritevResult) :
    SendLink × ℤ :=
  match writev (link.iov data) result with
  | (none, true) => (link, 0)
  | (none, false) => (link, -1)
  | (some bytes, _) =>
    let (wait_send, send_left) := skipLoop link.wait_send (bytes.length % 2 ^ 32)
    ({ link with wait_send := wait_send, written := link.written ++ bytes }, int32 send_left)

/-- What `WaitSend` does after `SendData` returned `ret`: a handler with something left waits.
SOURCE: mt_net.cpp:331-347 -/
def waitRest (link : SendLink) (data : List UInt8) (ret : ℤ) : SendLink :=
  if ret < 0 then { link with count := link.count + 1 }
  else
    let (item, _) := (SendHandler.mk link.count data 0).skipSendPos ret.toNat
    if item.getSendData.length = 0 then { link with count := link.count + 1 }
    else { link with wait_send := link.wait_send ++ [item], count := link.count + 1 }

/-- `WaitSend` until the handler sleeps; an empty request is refused by `CheckParams`.
SOURCE: mt_net.cpp:218-222, 322-347 -/
def request (link : SendLink) (data : List UInt8) (result : WritevResult) : SendLink :=
  if data = [] then link
  else
    let (sent, ret) := link.sendCacheTcp (some (link.count, data)) result
    sent.waitRest data ret

/-- `OutputNotify`.
SOURCE: mt_net.cpp:1396-1443 -/
def outputNotify (link : SendLink) (result : WritevResult) : SendLink :=
  let (sent, ret) := link.sendCacheTcp none result
  if ret < 0 then { sent with wait_send := [], closed := true } else sent

/-- `WaitSend` after a timeout, where the handler leaves the list, and the `Unlink` of `SendRecv`.
SOURCE: mt_net.cpp:349-367, 454-456 -/
def timeout (link : SendLink) (id : ℕ) : SendLink :=
  { link with wait_send := link.wait_send.eraseP (·.id == id) }

/-- A step.  Nothing is sent over a link that is closed. -/
def step (link : SendLink) (op : SendStep) : SendLink :=
  if link.closed then link
  else
    match op with
    | .request data result => link.request data result
    | .output result => link.outputNotify result
    | .timeout id => link.timeout id

end SendLink

end FStack.Model
