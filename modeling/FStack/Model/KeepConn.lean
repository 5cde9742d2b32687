import FStack.Model.HeapList

/-!
# Keep-alive connections

`TcpKeepMgr` (`adapter/micro_thread/mt_connection.cpp`) keeps TCP connections for reuse.  A connection that is given
back goes to the list of its destination, with a timer and with an entry in the kqueue that close it when it is idle
for too long or when the other side closes it; or it is reset and goes to a pool.

A connection is a number, and `conns` has its fields.  In the kqueue a descriptor has at most one object to notify;
whether `KqueueCtrlAdd` and `KqueueCtrlDelRef` go through is an input of a step.  The model also records who has a
connection (`users`), and which ones were deleted because the pool was full (`dead`).
-/

set_option autoImplicit false

namespace FStack.Model

/-- What the timers and the kqueue notify: a connection, or something else. -/
inductive KeepObj where
  | conn (id : ℕ)
  | other (id : ℕ)
deriving DecidableEq, Repr

/-- SOURCE: mt_connection.h:156-213 -/
structure TcpKeepConn where
  dst_addr : ℕ × ℕ := (0, 0)
  osfd : Option ℕ := none
  in_kqueue : Bool := false
  in_list : Bool := false
deriving DecidableEq, Repr

/-- SOURCE: mt_connection.h:281-307, mt_notify.h:250-295 -/
structure TcpKeepMgr where
  conns : ℕ → TcpKeepConn := fun _ => {}
  total : ℕ := 0
  pool : List ℕ := []
  keep_hash : ℕ × ℕ → Option (List ℕ) := fun _ => none
  timers : CTimerMng KeepObj
  maxfd : ℕ
  notify : ℕ → Option KeepObj := fun _ => none
  users : List ℕ := []
  dead : List ℕ := []

/-- What happens: a connection is taken, given a socket, or given back by who has it; `check_expired` looks at the
top of the timers; an event of a descriptor comes; and something else starts or stops a timer, or registers a
descriptor in the kqueue or removes it. -/
inductive KeepStep where
  | get (dst : ℕ × ℕ) (ctl : Bool)
  | create (id : ℕ) (socket : Option ℕ)
  | free (id : ℕ) (force_free : Bool) (now : ℕ) (ctl : Bool)
  | expire (now : ℕ) (ctl : Bool)
  | event (fd : ℕ) (ctl : Bool)
  | startOther (id interval now : ℕ)
  | stopOther (id : ℕ)
  | addOther (id fd : ℕ) (ctl : Bool)
  | delOther (id fd : ℕ) (ctl : Bool)
deriving DecidableEq, Repr

namespace TcpKeepMgr

/-- `_keep_time`, which nothing changes.
SOURCE: mt_connection.h:165 -/
def KEEP_TIME : ℕ := 10 * 60 * 1000

/-- `_max_free`.
SOURCE: mt_notify.h:258 -/
def MAX_FREE : ℕ := 500

/-- No connection yet; the timers and the descriptors are as many as given. -/
def init (max_item maxfd : ℕ) : TcpKeepMgr where
  timers := { heap := HeapList.new max_item, expired := fun _ => 0 }
  maxfd := maxfd

def setConn (s : TcpKeepMgr) (id : ℕ) (conn : TcpKeepConn) : TcpKeepMgr :=
  { s with conns := Function.update s.conns id conn }

/-! ## The kqueue -/

/-- SOURCE: kqueue_proxy.cpp:313-338, 497-523 -/
def kqueueAddObj (s : TcpKeepMgr) (obj : KeepObj) (fd : ℕ) (ctl : Bool) : TcpKeepMgr × Bool :=
  if s.maxfd ≤ fd then (s, false)
  else if s.notify fd ≠ none ∧ s.notify fd ≠ some obj then (s, false)
  else if ctl then ({ s with notify := Function.update s.notify fd (some obj) }, true)
  else (s, false)

/-- SOURCE: kqueue_proxy.cpp:340-364, 525-551 -/
def kqueueDelObj (s : TcpKeepMgr) (obj : KeepObj) (fd : ℕ) (ctl : Bool) : TcpKeepMgr × Bool :=
  if s.maxfd ≤ fd then (s, false)
  else if s.notify fd ≠ some obj then (s, false)
  else if ctl then ({ s with notify := Function.update s.notify fd none }, true)
  else (s, false)

/-! ## One connection -/

/-- `CreateSocket`; `socket` is what the call of `socket`, made non-blocking, gives.
SOURCE: mt_connection.cpp:231-268 -/
def createSocket (s : TcpKeepMgr) (id : ℕ) (socket : Option ℕ) : TcpKeepMgr :=
  if ((s.conns id).osfd.any (0 < ·)) then s else s.setConn id { s.conns id with osfd := socket }

/-- `Reset` with `CloseSocket`.
SOURCE: mt_connection.cpp:373-392 -/
def reset (s : TcpKeepMgr) (id : ℕ) : TcpKeepMgr :=
  s.setConn id { s.conns id with dst_addr := (0, 0), osfd := none }

/-- SOURCE: mt_connection.cpp:399-431 -/
def idleAttach (s : TcpKeepMgr) (id now : ℕ) (ctl : Bool) : TcpKeepMgr × Bool :=
  match (s.conns id).osfd with
  | none => (s, false)
  | some fd =>
    if (s.conns id).in_kqueue then (s, true)
    else
      let (timers, ok) := s.timers.startTimer (.conn id) KEEP_TIME now
      let s := { s with timers := timers }
      if ok then
        let (s, ok) := s.kqueueAddObj (.conn id) fd ctl
        if ok then (s.setConn id { s.conns id with in_kqueue := true }, true) else (s, false)
      else (s, false)

/-- SOURCE: mt_connection.cpp:433-465 -/
def idleDetach (s : TcpKeepMgr) (id : ℕ) (ctl : Bool) : TcpKeepMgr × Bool :=
  match (s.conns id).osfd with
  | none => (s, false)
  | some fd =>
    if (s.conns id).in_kqueue then
      let s := { s with timers := s.timers.stopTimer (.conn id) }
      let (s, ok) := s.kqueueDelObj (.conn id) fd ctl
      if ok then (s.setConn id { s.conns id with in_kqueue := false }, true) else (s, false)
    else (s, true)

/-! ## The lists and the pool -/

/-- `InsertConn` of the list with the key `key`.
SOURCE: mt_connection.h:254-260 -/
def insertConn (s : TcpKeepMgr) (key : ℕ × ℕ) (id : ℕ) : TcpKeepMgr :=
  if (s.conns id).in_list then s
  else
    { s.setConn id { s.conns id with in_list := true } with
      keep_hash := Function.update s.keep_hash key (some ((s.keep_hash key).getD [] ++ [id])) }

/-- `RemoveConn`: the connection leaves the list in which it is.
SOURCE: mt_connection.h:262-268 -/
def removeConn (s : TcpKeepMgr) (id : ℕ) : TcpKeepMgr :=
  if (s.conns id).in_list then
    { s.setConn id { s.conns id with in_list := false } with
      keep_hash := fun key => (s.keep_hash key).map (·.erase id) }
  else s

/-- SOURCE: mt_notify.h:269-280 -/
def allocPtr (s : TcpKeepMgr) : TcpKeepMgr × ℕ :=
  match s.pool with
  | id :: pool => ({ s with pool := pool }, id)
  | [] => ({ s with total := s.total + 1 }, s.total)

/-- SOURCE: mt_notify.h:282-289 -/
def freePtr (s : TcpKeepMgr) (id : ℕ) : TcpKeepMgr :=
  if MAX_FREE ≤ s.pool.length then { s with dead := id :: s.dead } else { s with pool := s.pool ++ [id] }

/-- SOURCE: mt_connection.cpp:494-520 -/
def getTcpKeepConn (s : TcpKeepMgr) (dst : ℕ × ℕ) (ctl : Bool) : TcpKeepMgr × ℕ :=
  match s.keep_hash dst with
  | some (id :: _) => (((s.removeConn id).idleDetach id ctl).1, id)
  | _ =>
    let (s, id) := s.allocPtr
    (s.setConn id { s.conns id with dst_addr := dst }, id)

/-- SOURCE: mt_connection.cpp:522-544 -/
def removeTcpKeepConn (s : TcpKeepMgr) (id : ℕ) (ctl : Bool) : TcpKeepMgr :=
  let dst := (s.conns id).dst_addr
  if dst.1 = 0 ∨ dst.2 = 0 then s
  else
    match s.keep_hash dst with
    | none => s
    | some _ => (s.idleDetach id ctl).1.removeConn id

/-- `HashFindData` of the list of a destination, or a new one. -/
def findCreateList (s : TcpKeepMgr) (dst : ℕ × ℕ) : TcpKeepMgr :=
  match s.keep_hash dst with
  | none => { s with keep_hash := Function.update s.keep_hash dst (some []) }
  | some _ => s

/-- SOURCE: mt_connection.cpp:546-579 -/
def cacheTcpKeepConn (s : TcpKeepMgr) (id now : ℕ) (ctl : Bool) : TcpKeepMgr × Bool :=
  let dst := (s.conns id).dst_addr
  if dst.1 = 0 ∨ dst.2 = 0 then (s, false)
  else
    let (s, ok) := (s.findCreateList dst).idleAttach id now ctl
    if ok then (s.insertConn dst id, true) else (s, false)

/-- SOURCE: mt_connection.cpp:581-598 -/
def freeTcpKeepConn (s : TcpKeepMgr) (id : ℕ) (force_free : Bool) (now : ℕ) (ctl : Bool) : TcpKeepMgr :=
  if force_free then (s.reset id).freePtr id
  else
    let (s, ok) := s.cacheTcpKeepConn id now ctl
    if ok then s else (s.reset id).freePtr id

/-- SOURCE: mt_connection.cpp:772-776 -/
def closeIdleTcpKeep (s : TcpKeepMgr) (id : ℕ) (ctl : Bool) : TcpKeepMgr :=
  (s.removeTcpKeepConn id ctl).freeTcpKeepConn id true 0 ctl

/-- `timer_notify` and `KeepaliveClose`.
SOURCE: mt_connection.cpp:467-471, mt_notify.cpp:297-323 -/
def notified (s : TcpKeepMgr) (obj : KeepObj) (ctl : Bool) : TcpKeepMgr :=
  match obj with
  | .conn id => s.closeIdleTcpKeep id ctl
  | .other _ => s

/-- A turn of `check_expired`.
SOURCE: heap_timer.cpp:82-89 -/
def checkExpired (s : TcpKeepMgr) (now : ℕ) (ctl : Bool) : TcpKeepMgr :=
  match s.timers.heap.heapTop with
  | none => s
  | some timer =>
    if s.timers.expired timer ≤ now then
      { s with timers := s.timers.stopTimer timer }.notified timer ctl
    else s

/-- A step, and the connection that it hands out. -/
def step (s : TcpKeepMgr) : KeepStep → TcpKeepMgr × Option ℕ
  | .get dst ctl =>
    let (s, id) := s.getTcpKeepConn dst ctl
    ({ s with users := id :: s.users }, some id)
  | .create id socket => (if id ∈ s.users then s.createSocket id socket else s, none)
  | .free id force_free now ctl =>
    (if id ∈ s.users then { s with users := s.users.erase id }.freeTcpKeepConn id force_free now ctl else s, none)
  | .expire now ctl => (s.checkExpired now ctl, none)
  | .event fd ctl =>
    match s.notify fd with
    | some obj => (s.notified obj ctl, none)
    | none => (s, none)
  | .startOther id interval now =>
    ({ s with timers := (s.timers.startTimer (.other id) interval now).1 }, none)
  | .stopOther id => ({ s with timers := s.timers.stopTimer (.other id) }, none)
  | .addOther id fd ctl => ((s.kqueueAddObj (.other id) fd ctl).1, none)
  | .delOther id fd ctl => ((s.kqueueDelObj (.other id) fd ctl).1, none)

end TcpKeepMgr

end FStack.Model
