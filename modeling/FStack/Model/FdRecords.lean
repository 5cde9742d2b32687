import FStack.Model.KeepConn
import FStack.Model.KqueueProxy

/-!
# The records of the descriptors

The table of `KqFdRef` (`adapter/micro_thread/kqueue_proxy.h`) is indexed by descriptor numbers, and outlives the
sockets.  Sockets are made and closed by links (`CSockLink`), keep-alive connections (`TcpKeepConn`), datagram
sessions (`UdpSessionNtfy`) and the application; the calls of `MtFrame` that wait on a descriptor register it while
they wait.

The model has the table, the filters in the kqueue, the open descriptors, and the objects of all these classes.  The
calls of `ff_kevent` succeed: a filter that is added is there, and one that is deleted is not.  The records that a
socket finds when it is made, and leaves when it is closed by one of the three classes, are kept in `turns`.
-/

set_option autoImplicit false

namespace FStack.Model

/-- What the kqueue notifies: a link, the `_keep_ntfy` of a keep-alive connection, a session, or the object of a
call that waits. -/
inductive NtfyObj where
  | link (id : ℕ)
  | keep (id : ℕ)
  | session (id : ℕ)
  | call (id : ℕ)
deriving DecidableEq, Repr

/-- Who has opened a descriptor. -/
inductive FdOwner where
  | link (id : ℕ)
  | keep (id : ℕ)
  | session (id : ℕ)
  | app
deriving DecidableEq, Repr

/-- A `KqFdRef` with its object.  There are never 2^31 objects that refer to it.
SOURCE: kqueue_proxy.h:156-219 -/
structure FdRecord where
  wr_ref : ℕ := 0
  rd_ref : ℕ := 0
  events : KqEvents := ∅
  kqobj : Option NtfyObj := none
deriving DecidableEq

namespace FdRecord

/-- SOURCE: kqueue_proxy.h:190-197 -/
def attachEvents (item : FdRecord) (event : KqEvents) : FdRecord :=
  { item with
    rd_ref := if .read ∈ event then item.rd_ref + 1 else item.rd_ref
    wr_ref := if .write ∈ event then item.wr_ref + 1 else item.wr_ref }

/-- A count that is zero stays so.
SOURCE: kqueue_proxy.h:198-213 -/
def detachEvents (item : FdRecord) (event : KqEvents) : FdRecord :=
  { item with
    rd_ref := if .read ∈ event then item.rd_ref - 1 else item.rd_ref
    wr_ref := if .write ∈ event then item.wr_ref - 1 else item.wr_ref }

end FdRecord

/-- The descriptor and the mask of a `CSockLink`. -/
structure FdLink where
  fd : Option ℕ := none
  events : KqEvents := ∅
deriving DecidableEq

/-- The descriptor and the mask of a `UdpSessionNtfy`, and its `_write_list`: the proxies that wait, each with its
own descriptor.
SOURCE: mt_notify.h:58-161, 163-220 -/
structure UdpNtfy where
  osfd : Option ℕ := some 0
  events : KqEvents := ∅
  write_list : List (ℕ × Option ℕ) := []
deriving DecidableEq

/-- The process.  `timers` has the connections whose timer runs, `users` those that were handed out; a call that
waits has its descriptor and its mask. -/
structure FdWorld where
  maxfd : ℕ
  records : ℕ → FdRecord := fun _ => {}
  filters : ℕ → KqEvents := fun _ => ∅
  owner : ℕ → Option FdOwner := fun _ => none
  links : ℕ → FdLink := fun _ => {}
  conns : ℕ → TcpKeepConn := fun _ => {}
  total : ℕ := 0
  pool : List ℕ := []
  keep_hash : ℕ × ℕ → Option (List ℕ) := fun _ => none
  timers : Finset ℕ := ∅
  users : Finset ℕ := ∅
  sessions : ℕ → UdpNtfy := fun _ => {}
  calls : ℕ → Option (ℕ × KqEvents) := fun _ => none
  turns : List FdRecord := []

/-- What happens.  A socket is asked for with the number that is given for it and whether it can be set up; a link
sends a request or what waits, whole or in part; a connection is taken, or given back with what `start_timer`
answers; and an object is told that its descriptor has failed. -/
inductive FdStep where
  | linkCreate (id : ℕ) (udp : Bool) (socket : Option ℕ) (ready : Bool)
  | linkSend (id : ℕ) (whole : Bool)
  | linkOutput (id : ℕ) (fails drained : Bool)
  | linkDestroy (id : ℕ)
  | keepGet (dst : ℕ × ℕ)
  | keepCreate (id : ℕ) (socket : Option ℕ) (ready : Bool)
  | keepFree (id : ℕ) (force_free timer : Bool)
  | keepTimeout (id : ℕ)
  | sessionCreate (id : ℕ) (socket : Option ℕ) (ready : Bool)
  | sessionClose (id : ℕ)
  | writeWait (proxy id : ℕ) (osfd : Option ℕ)
  | writeWake (proxy id : ℕ)
  | hangup (fd : ℕ) (socket : Option ℕ) (ready : Bool)
  | wait (id fd : ℕ) (events : KqEvents)
  | wake (id : ℕ)
  | appOpen (socket : Option ℕ)
  | appClose (fd : ℕ)
deriving DecidableEq

namespace FdWorld

/-- No socket yet. -/
def init (maxfd : ℕ) : FdWorld where
  maxfd := maxfd

def setRecord (s : FdWorld) (fd : ℕ) (item : FdRecord) : FdWorld :=
  { s with records := Function.update s.records fd item }

def setLink (s : FdWorld) (id : ℕ) (link : FdLink) : FdWorld :=
  { s with links := Function.update s.links id link }

def setConn (s : FdWorld) (id : ℕ) (conn : TcpKeepConn) : FdWorld :=
  { s with conns := Function.update s.conns id conn }

def setSession (s : FdWorld) (id : ℕ) (ntfy : UdpNtfy) : FdWorld :=
  { s with sessions := Function.update s.sessions id ntfy }

/-! ## Descriptors -/

/-- The number that `socket` gives, which is not in use. -/
def socket (s : FdWorld) (answer : Option ℕ) : Option ℕ := answer.filter fun fd => s.owner fd = none

/-- The descriptor is open from now on. -/
def opened (s : FdWorld) (fd : ℕ) (who : FdOwner) : FdWorld :=
  { s with owner := Function.update s.owner fd (some who), turns := s.records fd :: s.turns }

/-- `close`: the kernel drops the filters. -/
def close (s : FdWorld) (fd : ℕ) : FdWorld :=
  { s with
    owner := Function.update s.owner fd none
    filters := Function.update s.filters fd ∅ }

/-- `close` in one of the three classes. -/
def closed (s : FdWorld) (fd : ℕ) : FdWorld := { s.close fd with turns := s.records fd :: s.turns }

/-! ## The kqueue -/

/-- SOURCE: kqueue_proxy.h:252-254 -/
def kqFdRefGet (s : FdWorld) (fd : Option ℕ) : Option ℕ := fd.filter (· < s.maxfd)

/-- SOURCE: kqueue_proxy.cpp:168-234 -/
def kqueueCtrlAdd (s : FdWorld) (fd : Option ℕ) (events : KqEvents) : FdWorld × Bool :=
  match s.kqFdRefGet fd with
  | none => (s, false)
  | some fd =>
    let item := (s.records fd).attachEvents events
    let old_events := item.events
    let new_events := old_events ∪ events
    if old_events = new_events then (s.setRecord fd item, true)
    else
      ({ s.setRecord fd { item with events := new_events } with
          filters := Function.update s.filters fd (s.filters fd \ old_events ∪ events) }, true)

/-- `KqueueCtrlDelRef` with `use_ref` false, as all its callers have it.
SOURCE: kqueue_proxy.cpp:237-311 -/
def kqueueCtrlDel (s : FdWorld) (fd : Option ℕ) (events : KqEvents) : FdWorld × Bool :=
  match s.kqFdRefGet fd with
  | none => (s, false)
  | some fd =>
    let item := (s.records fd).detachEvents events
    let old_events := item.events
    let new_events := old_events \ events
    if old_events = new_events then (s.setRecord fd item, true)
    else
      ({ s.setRecord fd { item with events := new_events } with
          filters := Function.update s.filters fd (s.filters fd \ old_events ∪ new_events) }, true)

/-- SOURCE: kqueue_proxy.h:256-261 -/
def kqueueNtfyReg (s : FdWorld) (fd : Option ℕ) (obj : Option NtfyObj) : FdWorld :=
  match s.kqFdRefGet fd with
  | none => s
  | some fd => s.setRecord fd { s.records fd with kqobj := obj }

/-- SOURCE: kqueue_proxy.cpp:313-338, 497-523 -/
def kqueueAddObj (s : FdWorld) (obj : NtfyObj) (fd : Option ℕ) (events : KqEvents) : FdWorld × Bool :=
  match s.kqFdRefGet fd with
  | none => (s, false)
  | some n =>
    if (s.records n).kqobj ≠ none ∧ (s.records n).kqobj ≠ some obj then (s, false)
    else (s.kqueueNtfyReg fd (some obj)).kqueueCtrlAdd fd events

/-- SOURCE: kqueue_proxy.cpp:340-364, 525-551 -/
def kqueueDelObj (s : FdWorld) (obj : NtfyObj) (fd : Option ℕ) (events : KqEvents) : FdWorld × Bool :=
  match s.kqFdRefGet fd with
  | none => (s, false)
  | some n =>
    if (s.records n).kqobj ≠ some obj then (s, false)
    else (s.kqueueNtfyReg fd none).kqueueCtrlDel fd events

/-! ## Links -/

/-- SOURCE: mt_net.cpp:833-880 -/
def linkCreate (s : FdWorld) (id : ℕ) (udp : Bool) (answer : Option ℕ) (ready : Bool) : FdWorld :=
  if (s.links id).fd.any (0 < ·) then s
  else
    match s.socket answer with
    | none => s.setLink id { s.links id with fd := none }
    | some fd =>
      let s := s.opened fd (.link id)
      if ready then
        let events := if udp then (s.links id).events else insert .write (s.links id).events
        let events := insert .read events
        let (s, ok) := s.kqueueAddObj (.link id) (some fd) events
        if ok then s.setLink id ⟨some fd, events⟩ else (s.closed fd).setLink id ⟨none, events⟩
      else (s.closed fd).setLink id { s.links id with fd := none }

/-- `SendData` with what is left of the request.
SOURCE: mt_net.cpp:1098-1107 -/
def linkSend (s : FdWorld) (id : ℕ) (whole : Bool) : FdWorld :=
  let link := s.links id
  if whole then
    ((s.setLink id { link with events := link.events.erase .write }).kqueueCtrlDel link.fd {.write}).1
  else ((s.setLink id { link with events := insert .write link.events }).kqueueCtrlAdd link.fd {.read}).1

/-- `Destroy`, with `Close` and `Reset`.
SOURCE: mt_net.cpp:751-775, 805-831, 1509-1525 -/
def linkDestroy (s : FdWorld) (id : ℕ) : FdWorld :=
  match (s.links id).fd with
  | none => s.setLink id {}
  | some fd => (((s.kqueueDelObj (.link id) (some fd) (s.links id).events).1).closed fd).setLink id {}

/-- `OutputNotify` with what the socket does to the requests that wait.
SOURCE: mt_net.cpp:1396-1443 -/
def linkOutput (s : FdWorld) (id : ℕ) (fails drained : Bool) : FdWorld :=
  if fails then s.linkDestroy id
  else if drained then
    let link := s.links id
    ((s.setLink id { link with events := link.events.erase .write }).kqueueCtrlDel link.fd {.write}).1
  else s

/-! ## Keep-alive connections -/

/-- SOURCE: mt_connection.cpp:231-268 -/
def keepCreate (s : FdWorld) (id : ℕ) (answer : Option ℕ) (ready : Bool) : FdWorld :=
  if (s.conns id).osfd.any (0 < ·) then s
  else
    match s.socket answer with
    | none => s.setConn id { s.conns id with osfd := none }
    | some fd =>
      let s := s.opened fd (.keep id)
      if ready then s.setConn id { s.conns id with osfd := some fd }
      else (s.closed fd).setConn id { s.conns id with osfd := none }

/-- `Reset` with `CloseSocket`.
SOURCE: mt_connection.cpp:373-392 -/
def keepReset (s : FdWorld) (id : ℕ) : FdWorld :=
  let s' := s.setConn id { s.conns id with dst_addr := (0, 0), osfd := none }
  match (s.conns id).osfd with
  | none => s'
  | some fd => s'.closed fd

/-- SOURCE: mt_connection.cpp:399-431 -/
def idleAttach (s : FdWorld) (id : ℕ) (timer : Bool) : FdWorld × Bool :=
  match (s.conns id).osfd with
  | none => (s, false)
  | some fd =>
    if (s.conns id).in_kqueue then (s, true)
    else if timer then
      let s := { s with timers := insert id s.timers }
      let (s, ok) := s.kqueueAddObj (.keep id) (some fd) {.read}
      if ok then (s.setConn id { s.conns id with in_kqueue := true }, true) else (s, false)
    else (s, false)

/-- SOURCE: mt_connection.cpp:433-465 -/
def idleDetach (s : FdWorld) (id : ℕ) : FdWorld × Bool :=
  match (s.conns id).osfd with
  | none => (s, false)
  | some fd =>
    if (s.conns id).in_kqueue then
      let s := { s with timers := s.timers.erase id }
      let (s, ok) := s.kqueueDelObj (.keep id) (some fd) {.read}
      if ok then (s.setConn id { s.conns id with in_kqueue := false }, true) else (s, false)
    else (s, true)

/-- SOURCE: mt_connection.h:254-260 -/
def insertConn (s : FdWorld) (key : ℕ × ℕ) (id : ℕ) : FdWorld :=
  if (s.conns id).in_list then s
  else
    { s.setConn id { s.conns id with in_list := true } with
      keep_hash := Function.update s.keep_hash key (some ((s.keep_hash key).getD [] ++ [id])) }

/-- The connection is in no list after it.
SOURCE: mt_connection.h:262-268 -/
def removeConn (s : FdWorld) (id : ℕ) : FdWorld :=
  if (s.conns id).in_list then
    { s.setConn id { s.conns id with in_list := false } with
      keep_hash := fun key => (s.keep_hash key).map (·.filter (· ≠ id)) }
  else s

/-- SOURCE: mt_connection.cpp:494-520, mt_notify.h:269-280 -/
def getTcpKeepConn (s : FdWorld) (dst : ℕ × ℕ) : FdWorld :=
  match s.keep_hash dst, s.pool with
  | some (id :: _), _ =>
    let s := ((s.removeConn id).idleDetach id).1
    { s with users := insert id s.users }
  | _, id :: pool =>
    { s.setConn id { s.conns id with dst_addr := dst } with pool := pool, users := insert id s.users }
  | _, [] =>
    { s.setConn s.total { s.conns s.total with dst_addr := dst } with
      total := s.total + 1
      users := insert s.total s.users }

/-- SOURCE: mt_connection.cpp:522-544 -/
def removeTcpKeepConn (s : FdWorld) (id : ℕ) : FdWorld :=
  let dst := (s.conns id).dst_addr
  if dst.1 = 0 ∨ dst.2 = 0 then s
  else
    match s.keep_hash dst with
    | none => s
    | some _ => (s.idleDetach id).1.removeConn id

/-- SOURCE: mt_connection.cpp:546-579 -/
def cacheTcpKeepConn (s : FdWorld) (id : ℕ) (timer : Bool) : FdWorld × Bool :=
  let dst := (s.conns id).dst_addr
  if dst.1 = 0 ∨ dst.2 = 0 then (s, false)
  else
    let s := { s with keep_hash := Function.update s.keep_hash dst (some ((s.keep_hash dst).getD [])) }
    let (s, ok) := s.idleAttach id timer
    if ok then (s.insertConn dst id, true) else (s, false)

/-- `Reset`, and the connection goes to the pool.
SOURCE: mt_connection.cpp:585-586, mt_notify.h:282-289 -/
def keepRelease (s : FdWorld) (id : ℕ) : FdWorld :=
  let s := s.keepReset id
  if TcpKeepMgr.MAX_FREE ≤ s.pool.length then s else { s with pool := s.pool ++ [id] }

/-- SOURCE: mt_connection.cpp:581-598 -/
def freeTcpKeepConn (s : FdWorld) (id : ℕ) (force_free timer : Bool) : FdWorld :=
  if force_free then s.keepRelease id
  else
    let (s, ok) := s.cacheTcpKeepConn id timer
    if ok then s else s.keepRelease id

/-- SOURCE: mt_connection.cpp:772-776 -/
def closeIdleTcpKeep (s : FdWorld) (id : ℕ) : FdWorld := (s.removeTcpKeepConn id).keepRelease id

/-! ## Sessions of datagrams -/

/-- `CreateSocket`.
SOURCE: mt_notify.cpp:75-113 -/
def sessionSocket (s : FdWorld) (id : ℕ) (answer : Option ℕ) (ready : Bool) : FdWorld :=
  match s.socket answer with
  | none => s
  | some fd =>
    let s := s.opened fd (.session id)
    if ready then
      let s := s.setSession id { s.sessions id with osfd := some fd, events := insert .read (s.sessions id).events }
      ((s.kqueueNtfyReg (some fd) (some (.session id))).kqueueCtrlAdd (some fd) {.read}).1
    else s.closed fd

/-- `CloseSocket`.
SOURCE: mt_notify.cpp:115-127 -/
def sessionClose (s : FdWorld) (id : ℕ) : FdWorld :=
  match (s.sessions id).osfd with
  | none => s
  | some fd =>
    if 0 < fd then
      let s := (s.kqueueCtrlDel (some fd) {.read}).1.kqueueNtfyReg (some fd) none
      (s.setSession id { s.sessions id with osfd := none, events := (s.sessions id).events.erase .read }).closed fd
    else s

/-- The socket of a session for a connection that uses it.
SOURCE: mt_connection.cpp:617-628 -/
def sessionCreate (s : FdWorld) (id : ℕ) (answer : Option ℕ) (ready : Bool) : FdWorld :=
  if (s.sessions id).osfd.any (0 < ·) then s else s.sessionSocket id answer ready

/-- `HangupNotify`.
SOURCE: mt_notify.cpp:232-245 -/
def sessionHangup (s : FdWorld) (id : ℕ) (answer : Option ℕ) (ready : Bool) : FdWorld :=
  ((s.kqueueCtrlDel (s.sessions id).osfd (s.sessions id).events).1.sessionClose id).sessionSocket id answer ready

/-- A proxy that waits to write is added to the kqueue; `osfd` is its descriptor.
SOURCE: mt_notify.h:185-201, mt_notify.cpp:247-270 -/
def writeWait (s : FdWorld) (proxy id : ℕ) (osfd : Option ℕ) : FdWorld :=
  let ntfy := s.sessions id
  if proxy ∈ ntfy.write_list.map (·.1) then s
  else
    match s.kqFdRefGet osfd with
    | none => s
    | some n =>
      if (s.records n).kqobj ≠ none ∧ (s.records n).kqobj ≠ some (.session id) then s
      else
        let (s, ok) := s.kqueueCtrlAdd ntfy.osfd {.write}
        if ok then
          s.setSession id
            { ntfy with events := insert .write ntfy.events, write_list := ntfy.write_list ++ [(proxy, osfd)] }
        else s

/-- A proxy does not wait any longer.
SOURCE: mt_notify.h:203-215, mt_notify.cpp:272-295 -/
def writeWake (s : FdWorld) (proxy id : ℕ) : FdWorld :=
  let ntfy := s.sessions id
  match ntfy.write_list.find? (·.1 = proxy) with
  | none => s
  | some item =>
    let ntfy := { ntfy with write_list := ntfy.write_list.erase item }
    let s := s.setSession id ntfy
    match s.kqFdRefGet item.2 with
    | none => s
    | some n =>
      if (s.records n).kqobj ≠ some (.session id) then s
      else
        let (s, ok) := s.kqueueCtrlDel ntfy.osfd {.write}
        if ok then s.setSession id { ntfy with events := ntfy.events.erase .write } else s

/-! ## Calls that wait -/

/-- `KqueueSchedule` until the thread sleeps, for one object; a call waits on an open descriptor.
SOURCE: micro_thread.cpp:912-938 -/
def wait (s : FdWorld) (id fd : ℕ) (events : KqEvents) : FdWorld :=
  if s.calls id ≠ none ∨ s.owner fd = none then s
  else
    let (s, ok) := s.kqueueAddObj (.call id) (some fd) events
    if ok then { s with calls := Function.update s.calls id (some (fd, events)) } else s

/-- `KqueueSchedule` after the thread has slept.
SOURCE: micro_thread.cpp:940-958 -/
def wake (s : FdWorld) (id : ℕ) : FdWorld :=
  match s.calls id with
  | none => s
  | some (fd, events) =>
    { (s.kqueueDelObj (.call id) (some fd) events).1 with calls := Function.update s.calls id none }

/-- `KqueuerObj::HangupNotify`.
SOURCE: kqueue_proxy.cpp:490-495 -/
def callHangup (s : FdWorld) (id : ℕ) : FdWorld :=
  match s.calls id with
  | none => s
  | some (fd, events) => (s.kqueueCtrlDel (some fd) events).1

/-! ## Steps -/

/-- The object of a descriptor is told that it has failed.
SOURCE: kqueue_proxy.cpp:394-407, mt_notify.cpp:297-323,
mt_net.cpp:1445-1452 -/
def hangup (s : FdWorld) (fd : ℕ) (answer : Option ℕ) (ready : Bool) : FdWorld :=
  match (s.records fd).kqobj with
  | none => s
  | some (.link id) => s.linkDestroy id
  | some (.keep id) => s.closeIdleTcpKeep id
  | some (.session id) => s.sessionHangup id answer ready
  | some (.call id) => s.callHangup id

/-- A step. -/
def step (s : FdWorld) : FdStep → FdWorld
  | .linkCreate id udp socket ready => s.linkCreate id udp socket ready
  | .linkSend id whole => s.linkSend id whole
  | .linkOutput id fails drained => s.linkOutput id fails drained
  | .linkDestroy id => s.linkDestroy id
  | .keepGet dst => s.getTcpKeepConn dst
  | .keepCreate id socket ready => if id ∈ s.users then s.keepCreate id socket ready else s
  | .keepFree id force_free timer =>
    if id ∈ s.users then { s with users := s.users.erase id }.freeTcpKeepConn id force_free timer else s
  | .keepTimeout id =>
    if id ∈ s.timers then { s with timers := s.timers.erase id }.closeIdleTcpKeep id else s
  | .sessionCreate id socket ready => s.sessionCreate id socket ready
  | .sessionClose id => s.sessionClose id
  | .writeWait proxy id osfd => s.writeWait proxy id osfd
  | .writeWake proxy id => s.writeWake proxy id
  | .hangup fd socket ready => s.hangup fd socket ready
  | .wait id fd events => s.wait id fd events
  | .wake id => s.wake id
  | .appOpen socket =>
    match s.socket socket with
    | none => s
    | some fd => s.opened fd .app
  | .appClose fd => if s.owner fd = some .app then s.close fd else s

end FdWorld

end FStack.Model
