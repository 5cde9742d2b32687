import FStack.Model.Kqueue

/-!
# The kqueue of the micro threads

`KqueueCtrlAdd`, `KqueueCtrlDel` and `KqueueCtrlDelRef` (`adapter/micro_thread/kqueue_proxy.cpp`) keep,
for each descriptor, a record of the directions that are listened to, and rewrite the filters in the
kqueue when it changes.  Every change is a `ff_kevent` call of its own; what the change meets in the
process, and with it whether it fails, is an input of the call.
-/

set_option autoImplicit false

namespace FStack.Model

instance : Fintype EvFilter := ⟨{.read, .write}, by intro dir; cases dir <;> simp⟩

/-- A set of `KQ_EVENT_READ` and `KQ_EVENT_WRITE`. -/
abbrev KqEvents := Finset EvFilter

/-- The record of a descriptor.
SOURCE: kqueue_proxy.h:156-219 -/
structure KqFdRef where
  wr_ref : BitVec 32 := 0
  rd_ref : BitVec 32 := 0
  events : KqEvents := ∅
deriving DecidableEq

namespace KqFdRef

/-- SOURCE: kqueue_proxy.h:190-197 -/
def attachEvents (item : KqFdRef) (event : KqEvents) : KqFdRef :=
  { item with
    rd_ref := if .read ∈ event then item.rd_ref + 1 else item.rd_ref
    wr_ref := if .write ∈ event then item.wr_ref + 1 else item.wr_ref }

/-- A reference less, but never less than none. -/
def dropRef (ref : BitVec 32) : BitVec 32 := if (0#32).slt ref then ref - 1 else 0

/-- SOURCE: kqueue_proxy.h:198-213 -/
def detachEvents (item : KqFdRef) (event : KqEvents) : KqFdRef :=
  { item with
    rd_ref := if .read ∈ event then dropRef item.rd_ref else item.rd_ref
    wr_ref := if .write ∈ event then dropRef item.wr_ref else item.wr_ref }

/-- The directions that are still listened to after a deletion; `use_ref` lets those that are
referred to stay.
SOURCE: kqueue_proxy.cpp:255-266 -/
def restEvents (item : KqFdRef) (events : KqEvents) (use_ref : Bool) : KqEvents :=
  if use_ref then
    (item.events \ if item.rd_ref = 0 then {.read} else ∅) \ if item.wr_ref = 0 then {.write} else ∅
  else item.events \ events

@[simp] theorem attachEvents_events (item : KqFdRef) (event : KqEvents) :
    (item.attachEvents event).events = item.events := rfl

@[simp] theorem detachEvents_events (item : KqFdRef) (event : KqEvents) :
    (item.detachEvents event).events = item.events := rfl

end KqFdRef

/-- A change of a filter: its flags and its direction. -/
abbrev KqChange := EvFlags × EvFilter

/-- What each change of a call meets in the process.  A call makes no change twice. -/
abbrev KqEnv := KqChange → RegisterEnv

/-- The proxy with the knotes of its kqueue. -/
structure KqueueProxy where
  maxfd : BitVec 32
  kqrefs : BitVec 32 → KqFdRef
  kq : KnoteTable

namespace KqueueProxy

def DEFAULT_MAX_FD_NUM : BitVec 32 := 100000

/-- SOURCE: kqueue_proxy.cpp:32-60 -/
def initKqueue (max_num : BitVec 32) : KqueueProxy where
  maxfd := if DEFAULT_MAX_FD_NUM.slt max_num then max_num else DEFAULT_MAX_FD_NUM
  kqrefs _ := {}
  kq _ _ := none

/-- SOURCE: kqueue_proxy.h:252-254 -/
def kqFdRefGet (s : KqueueProxy) (fd : BitVec 32) : Option KqFdRef :=
  if s.maxfd.sle fd || fd.slt 0 then none else some (s.kqrefs fd)

def setRef (s : KqueueProxy) (fd : BitVec 32) (item : KqFdRef) : KqueueProxy :=
  { s with kqrefs := Function.update s.kqrefs fd item }

/-- The changes of a call one after the other; the first that fails ends it. -/
def ffKevents (env : KqEnv) (fd : BitVec 32) : List KqChange → KnoteTable → KnoteTable × Bool
  | [], kq => (kq, true)
  | (flags, dir) :: rest, kq =>
    match kqueueRegister (env (flags, dir)) kq
        { ident := fd.signExtend 64, filter := dir, flags := flags } with
    | .error _ => (kq, false)
    | .ok kq' => ffKevents env fd rest kq'

def delChange (dir : EvFilter) : KqChange := ({ EV_DELETE := true }, dir)

def addChange (dir : EvFilter) : KqChange := ({ EV_ADD := true }, dir)

/-- The changes that take the filters of one set away and then add those of another.
SOURCE: kqueue_proxy.cpp:190-229, 274-306 -/
def rewrites (old_events events : KqEvents) : List KqChange :=
  ([.write, .read].filter (· ∈ old_events)).map delChange ++
    ([.write, .read].filter (· ∈ events)).map addChange

/-- `KqueueCtrlAdd`: of the filters that were taken away only those in `events` are added again.
SOURCE: kqueue_proxy.cpp:168-234 -/
def kqueueCtrlAdd (s : KqueueProxy) (env : KqEnv) (fd : BitVec 32) (events : KqEvents) :
    KqueueProxy × Bool :=
  match s.kqFdRefGet fd with
  | none => (s, false)
  | some ref =>
    let item := ref.attachEvents events
    let old_events := item.events
    let new_events := old_events ∪ events
    if old_events = new_events then (s.setRef fd item, true)
    else
      let (kq, ok) := ffKevents env fd (rewrites old_events events) s.kq
      if ok then ({ s.setRef fd { item with events := new_events } with kq := kq }, true)
      else ({ s.setRef fd (item.detachEvents events) with kq := kq }, false)

/-- `KqueueCtrlDelRef`.
SOURCE: kqueue_proxy.cpp:242-311 -/
def kqueueCtrlDelRef (s : KqueueProxy) (env : KqEnv) (fd : BitVec 32) (events : KqEvents)
    (use_ref : Bool) : KqueueProxy × Bool :=
  match s.kqFdRefGet fd with
  | none => (s, false)
  | some ref =>
    let item := ref.detachEvents events
    let old_events := item.events
    let new_events := item.restEvents events use_ref
    if old_events = new_events then (s.setRef fd item, true)
    else
      let (kq, ok) := ffKevents env fd (rewrites old_events new_events) s.kq
      if ok then ({ s.setRef fd { item with events := new_events } with kq := kq }, true)
      else ({ s.setRef fd item with kq := kq }, false)

/-- SOURCE: kqueue_proxy.cpp:237-240 -/
def kqueueCtrlDel (s : KqueueProxy) (env : KqEnv) (fd : BitVec 32) (events : KqEvents) :
    KqueueProxy × Bool :=
  s.kqueueCtrlDelRef env fd events false

end KqueueProxy

/-- A call of one of the three functions, with what its changes meet. -/
inductive KqCall where
  | add (env : KqEnv) (fd : BitVec 32) (events : KqEvents)
  | del (env : KqEnv) (fd : BitVec 32) (events : KqEvents)
  | delRef (env : KqEnv) (fd : BitVec 32) (events : KqEvents) (use_ref : Bool)

namespace KqCall

def env : KqCall → KqEnv
  | .add env _ _ | .del env _ _ | .delRef env _ _ _ => env

def fd : KqCall → BitVec 32
  | .add _ fd _ | .del _ fd _ | .delRef _ fd _ _ => fd

end KqCall

/-- A call: the proxy after it, and what it returns. -/
def KqueueProxy.call (s : KqueueProxy) : KqCall → KqueueProxy × Bool
  | .add env fd events => s.kqueueCtrlAdd env fd events
  | .del env fd events => s.kqueueCtrlDel env fd events
  | .delRef env fd events use_ref => s.kqueueCtrlDelRef env fd events use_ref

def KqueueProxy.step (s : KqueueProxy) (c : KqCall) : KqueueProxy := (s.call c).1

/-!
## Registering a list of objects

`KqueueProxy::KqueueAdd` (`kqueue_proxy.cpp`) registers the objects of a list one after the other.
If one cannot be registered, those before it are taken out again.

The objects are of the class `KqueuerObj` itself.  Each has its descriptor and its events, and the record of a
descriptor has the object that is notified.  What the calls of `ff_kevent` for an object meet is an input, for the
registration and for the roll-back.
-/

/-- The proxy with `_kqobj` of the records, and `_fd` and `_events` of the objects. -/
structure NotifyProxy where
  proxy : KqueueProxy
  kqobj : BitVec 32 → Option ℕ
  fd : ℕ → BitVec 32
  events : ℕ → KqEvents

namespace NotifyProxy

/-- SOURCE: kqueue_proxy.h:183-185 -/
def setNotifyObj (s : NotifyProxy) (fd : BitVec 32) (ntfy : Option ℕ) : NotifyProxy :=
  { s with kqobj := Function.update s.kqobj fd ntfy }

/-- SOURCE: kqueue_proxy.cpp:497-523 -/
def kqueueCtlAdd (s : NotifyProxy) (env : KqEnv) (obj : ℕ) : NotifyProxy × ℤ :=
  let osfd := s.fd obj
  let old_obj := s.kqobj osfd
  if old_obj ≠ none ∧ old_obj ≠ some obj then (s, -1)
  else
    let s := s.setNotifyObj osfd (some obj)
    let (proxy, ok) := s.proxy.kqueueCtrlAdd env osfd (s.events obj)
    let s := { s with proxy := proxy }
    if ok then (s, 0) else (s.setNotifyObj osfd old_obj, -2)

/-- SOURCE: kqueue_proxy.cpp:525-551 -/
def kqueueCtlDel (s : NotifyProxy) (env : KqEnv) (obj : ℕ) : NotifyProxy × ℤ :=
  let osfd := s.fd obj
  let old_obj := s.kqobj osfd
  if old_obj ≠ some obj then (s, -1)
  else
    let s := s.setNotifyObj osfd none
    let (proxy, ok) := s.proxy.kqueueCtrlDelRef env osfd (s.events obj) false
    let s := { s with proxy := proxy }
    if ok then (s, 0) else (s.setNotifyObj osfd old_obj, -2)

/-- SOURCE: kqueue_proxy.cpp:313-338 -/
def kqueueAddObj (s : NotifyProxy) (env : KqEnv) (obj : ℕ) : NotifyProxy × Bool :=
  match s.proxy.kqFdRefGet (s.fd obj) with
  | none => (s, false)
  | some _ =>
    let (s, ret) := s.kqueueCtlAdd env obj
    (s, !decide (ret < 0))

/-- SOURCE: kqueue_proxy.cpp:340-364 -/
def kqueueDelObj (s : NotifyProxy) (env : KqEnv) (obj : ℕ) : NotifyProxy × Bool :=
  match s.proxy.kqFdRefGet (s.fd obj) with
  | none => (s, false)
  | some _ =>
    let (s, ret) := s.kqueueCtlDel env obj
    (s, !decide (ret < 0))

/-- The first loop of `KqueueAdd`, up to an object that cannot be registered.
SOURCE: kqueue_proxy.cpp:116-131 -/
def addLoop (env : ℕ → KqEnv) : List ℕ → NotifyProxy → NotifyProxy × Option ℕ
  | [], s => (s, none)
  | kqobj :: rest, s =>
    let (s, ok) := s.kqueueAddObj (env kqobj) kqobj
    if ok then addLoop env rest s else (s, some kqobj)

/-- The second loop, from the start of the list up to that object, and whether every call of it succeeds.
SOURCE: kqueue_proxy.cpp:135-145 -/
def rollBack (env : ℕ → KqEnv) (kqobj_error : ℕ) : List ℕ → NotifyProxy → NotifyProxy × Bool
  | [], s => (s, true)
  | kqobj :: rest, s =>
    if kqobj = kqobj_error then (s, true)
    else
      let (s, deleted) := s.kqueueDelObj (env kqobj) kqobj
      let (s, ok) := rollBack env kqobj_error rest s
      (s, deleted && ok)

/-- `KqueueAdd` on a list; the changes for an object meet `env`, and those of the roll-back meet `undoEnv`.
SOURCE: kqueue_proxy.cpp:116-148 -/
def kqueueAdd (s : NotifyProxy) (env undoEnv : ℕ → KqEnv) (obj_list : List ℕ) : NotifyProxy × Bool :=
  match addLoop env obj_list s with
  | (s, none) => (s, true)
  | (s, some kqobj_error) => ((rollBack undoEnv kqobj_error obj_list s).1, false)

end NotifyProxy

end FStack.Model

/-!
## The write list of a UDP session

The proxies of a `UdpSessionNtfy` (`mt_notify.cpp`, `mt_notify.h`) share its socket.  A proxy that
wants to write registers the socket for writing and goes into `_write_list`; when it is taken out of the kqueue, it
leaves the list and takes the registration away.  The socket itself is registered for reading when it is made.

The kqueue is that of `KqueueProxy`; the record of the socket there has the `UdpSessionNtfy` as its object.
-/

namespace FStack.Model

open KqueueProxy

/-- A `UdpSessionNtfy` with the kqueue: its socket, its `_events`, the list of the proxies that wait to write, and
their flags. -/
structure SessionNtfy where
  kqueue : KqueueProxy
  osfd : BitVec 32
  events : KqEvents
  write_list : List ℕ
  flag : ℕ → Bool

namespace SessionNtfy

/-- SOURCE: mt_notify.cpp:41-47 -/
def insertWriteWait (s : SessionNtfy) (proxy : ℕ) : SessionNtfy :=
  if s.flag proxy then s
  else { s with write_list := s.write_list ++ [proxy], flag := Function.update s.flag proxy true }

/-- SOURCE: mt_notify.cpp:49-55 -/
def removeWriteWait (s : SessionNtfy) (proxy : ℕ) : SessionNtfy :=
  if s.flag proxy then
    { s with write_list := s.write_list.erase proxy, flag := Function.update s.flag proxy false }
  else s

/-- `CreateSocket` with a socket that was made: what `KqueueCtrlAdd` returns is not looked at.
SOURCE: mt_notify.cpp:107-113 -/
def createSocket (kqueue : KqueueProxy) (env : KqEnv) (osfd : BitVec 32) : SessionNtfy :=
  ⟨(kqueue.kqueueCtrlAdd env osfd {.read}).1, osfd, {.read}, [], fun _ => false⟩

/-- `UdpSessionNtfy::KqueueCtlAdd`.
SOURCE: mt_notify.cpp:246-269 -/
def kqueueCtlAdd (s : SessionNtfy) (env : KqEnv) : SessionNtfy × ℤ :=
  let (kqueue, ok) := s.kqueue.kqueueCtrlAdd env s.osfd {.write}
  if ok then ({ s with kqueue := kqueue, events := s.events ∪ {.write} }, 0) else ({ s with kqueue := kqueue }, -2)

/-- `UdpSessionNtfy::KqueueCtlDel`.
SOURCE: mt_notify.cpp:271-295 -/
def kqueueCtlDel (s : SessionNtfy) (env : KqEnv) : SessionNtfy × ℤ :=
  let (kqueue, ok) := s.kqueue.kqueueCtrlDel env s.osfd {.write}
  if ok then ({ s with kqueue := kqueue, events := s.events \ {.write} }, 0) else ({ s with kqueue := kqueue }, -2)

/-- `SessionProxy::KqueueCtlAdd` of a proxy with its `_events`.
SOURCE: mt_notify.h:186-202 -/
def proxyCtlAdd (s : SessionNtfy) (env : KqEnv) (proxy : ℕ) (events : KqEvents) : SessionNtfy × ℤ :=
  if .write ∉ events then (s, 0)
  else
    let (s, ret) := s.kqueueCtlAdd env
    if ret < 0 then (s, -2) else (s.insertWriteWait proxy, 0)

/-- `SessionProxy::KqueueCtlDel` of a proxy with its `_events`.
SOURCE: mt_notify.h:204-216 -/
def proxyCtlDel (s : SessionNtfy) (env : KqEnv) (proxy : ℕ) (events : KqEvents) : SessionNtfy × ℤ :=
  if .write ∉ events then (s, 0) else (s.removeWriteWait proxy).kqueueCtlDel env

end SessionNtfy

/-- A proxy registers or deregisters, with the events that it wants, and with what the changes of the kqueue meet. -/
inductive ProxyCall where
  | add (env : KqEnv) (proxy : ℕ) (events : KqEvents)
  | del (env : KqEnv) (proxy : ℕ) (events : KqEvents)

/-- A call of a proxy. -/
def SessionNtfy.step (s : SessionNtfy) : ProxyCall → SessionNtfy
  | .add env proxy events => (s.proxyCtlAdd env proxy events).1
  | .del env proxy events => (s.proxyCtlDel env proxy events).1

end FStack.Model
