import FStack.Model.RwCache

/-!
# Cutting responses out of a TCP link

`CSockLink::InputNotify` reads into the cache of the link, and `DispathTcp` then cuts messages out of it
(`adapter/micro_thread/mt_net.cpp`).  The callback of the application sees a copy of the first bytes of the
cache, which a buffer of 512 bytes keeps from one call to the next and which grows when the callback asks for
more.  When it knows the length of the message, the buffer goes to the handler of the session.

A step is the reading of a call or one turn of the loop, so that a call is a step `recv` and the steps `turn`
until the link is not `busy` any more.  What `malloc` answers, what the socket gives and which sessions are
registered are inputs; the callback is a parameter.
-/

set_option autoImplicit false

namespace FStack.Model

/-- What a callback of type `CHECK_SESSION_CALLBACK` returns, with the session and the length it sets.
SOURCE: mt_net_api.h:42-57 -/
structure CheckResult where
  ret : ℤ
  sid : ℕ := 0
  need_len : ℕ := 0
deriving DecidableEq, Repr

/-- A buffer for a response: `mem` is what was written into its `size` bytes. -/
structure RspBuff where
  size : ℕ
  data_len : ℕ
  mem : List UInt8
deriving DecidableEq, Repr

namespace RspBuff

/-- A buffer from `new_sk_buffer`. -/
def new (size : ℕ) : RspBuff := ⟨size, 0, []⟩

/-- The bytes that `read_cache_begin` copies behind the data.
SOURCE: mt_net.cpp:1141-1142 -/
def readOn (buff : RspBuff) (cache : TRWCache) : RspBuff :=
  let bytes := cache.readCacheBegin buff.data_len (buff.size - buff.data_len)
  { buff with data_len := buff.data_len + bytes.length, mem := buff.mem ++ bytes }

/-- `reserve_sk_buffer`.  Without memory the old buffer stays as it is.
SOURCE: mt_cache.cpp:70-89 -/
def reserve (buff : RspBuff) (size : ℕ) (malloc : Bool) : RspBuff :=
  if size ≤ buff.size then buff
  else if malloc then { buff with size := size }
  else buff

/-- The length that is reserved for a message whose length the callback does not know yet: if it asks for
none, a full buffer is doubled.
SOURCE: mt_net.cpp:1213-1217 -/
def wanted (buff : RspBuff) (need_len : ℕ) : ℕ :=
  if need_len = 0 ∧ buff.data_len = buff.size then buff.size * 2 % 2 ^ 32 else need_len

end RspBuff

/-- A response that is handed to the handler of its session, or skipped for want of one. -/
inductive Dispathed where
  | handed (sid : ℕ) (buff : RspBuff)
  | skipped (sid : ℕ) (len : ℕ)
deriving DecidableEq, Repr

/-- The receiving half of a `CSockLink`.  It is `busy` in the loop of `DispathTcp`, and `closed` after
`Destroy`. -/
structure TcpLink where
  io : CacheState
  rsp_buff : Option RspBuff
  busy : Bool
  closed : Bool
deriving DecidableEq, Repr

/-- What happens at a link: a call of `InputNotify` reads, or it takes a turn of the loop. -/
inductive InputStep where
  | recv (mallocs : List Bool) (results : List TRWCache.RecvResult)
  | turn (registered : List ℕ) (mallocs : Bool × Bool)
deriving DecidableEq, Repr

/-- The sessions that a turn finds. -/
def InputStep.registered : InputStep → List ℕ
  | .recv _ _ => []
  | .turn registered _ => registered

namespace TcpLink

/-- A link whose pool gives buffers of 4096 bytes.
SOURCE: mt_net.cpp:1705 -/
def init : TcpLink := ⟨CacheState.init 4096, none, false, false⟩

/-- `InputNotify` until `RecvDispath`.
SOURCE: mt_net.cpp:1352-1383 -/
def recv (link : TcpLink) (mallocs : List Bool) (results : List TRWCache.RecvResult) : TcpLink :=
  let (io, answer) := link.io.call (.tcpRecv mallocs results)
  if answer.ret < 0 then { link with io := io, closed := true }
  else { link with io := io, busy := true }

/-- `ExtendRecvRsp`.
SOURCE: mt_net.cpp:1129-1143 -/
def extendRecvRsp (link : TcpLink) (malloc : Bool) : Option RspBuff :=
  match link.rsp_buff with
  | some buff => some (buff.readOn link.io.cache)
  | none => if malloc then some ((RspBuff.new 512).readOn link.io.cache) else none

/-- `return 0` in the loop. -/
def wait (link : TcpLink) : TcpLink := { link with busy := false }

/-- A negative `return` in the loop, after which `InputNotify` destroys the link. -/
def fail (link : TcpLink) : TcpLink := { link with busy := false, closed := true }

/-- The turn where the callback does not know the length of the message yet.
SOURCE: mt_net.cpp:1211-1242 -/
def enlarge (link : TcpLink) (buff : RspBuff) (need_len : ℕ) (malloc : Bool) : TcpLink :=
  let need_len := buff.wanted need_len
  if need_len ≤ buff.size ∨ 100 * 1024 * 1024 < need_len then
    { link with rsp_buff := some buff }.wait
  else
    let buff := buff.reserve need_len malloc
    if link.io.cache.len ≤ buff.data_len then { link with rsp_buff := some buff }.wait
    else { link with rsp_buff := some buff }

/-- The turn where the callback knows the length of the message.
SOURCE: mt_net.cpp:1244-1268 -/
def cut (link : TcpLink) (buff : RspBuff) (len : ℕ) (sid : ℕ) (registered : List ℕ) :
    TcpLink × Option Dispathed :=
  if int32 link.io.cache.len < len then ({ link with rsp_buff := some buff }.wait, none)
  else
    let link := { link with io := link.io.step (.skipData len), rsp_buff := none }
    if sid ∈ registered then (link, some (.handed sid { buff with data_len := len }))
    else (link, some (.skipped sid len))

variable (check_session : List UInt8 → CheckResult)

/-- A turn of the loop of `DispathTcp`.
SOURCE: mt_net.cpp:1191-1274 -/
def turn (link : TcpLink) (registered : List ℕ) (mallocs : Bool × Bool) : TcpLink × Option Dispathed :=
  if link.io.cache.len = 0 then (link.wait, none)
  else
    match link.extendRecvRsp mallocs.1 with
    | none => (link.fail, none)
    | some buff =>
      let r := check_session buff.mem
      if r.ret < 0 then ({ link with rsp_buff := some buff }.fail, none)
      else if r.ret = 0 then (link.enlarge buff r.need_len mallocs.2, none)
      else link.cut buff r.ret.toNat r.sid registered

/-- A step.  The loop ends before the link is read again, and nothing happens to a link that is closed. -/
def step (link : TcpLink) (op : InputStep) : TcpLink × Option Dispathed :=
  if link.closed then (link, none)
  else
    match op with
    | .recv mallocs results => (if link.busy then link else link.recv mallocs results, none)
    | .turn registered mallocs =>
      if link.busy then link.turn check_session registered mallocs else (link, none)

end TcpLink

end FStack.Model
