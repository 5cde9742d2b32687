import FStack.Model.Epoll

/-!
# The host events of nginx

nginx gives the events of its kernel descriptors to a module of their own
(`app/nginx-1.28.0/src/event/modules/ngx_ff_host_event_module.c`), which has one registration in an epoll of the kernel
for the two events of a connection.  Every function takes `ADD`, `MOD` or `DEL` from the flag `active` of the other event.

The model is about one connection whose descriptor is open.  An event goes by its direction: `ev` is `c->read` for
`NGX_READ_EVENT` and `c->write` for `NGX_WRITE_EVENT`.
-/

set_option autoImplicit false

namespace FStack.Model

open FStack.Prelude

def EPOLLRDHUP : BitVec 32 := 0x2000

/-- The flags of an event, which are flags of a kevent.
SOURCE: app/nginx-1.28.0/src/event/ngx_event.h:313-341, lib/ff_event.h:137-156 -/
inductive NgxEventFlag where
  | closeEvent
  | lowatEvent
  | flushEvent
  | oneshotEvent
  | clearEvent
  | disableEvent
deriving DecidableEq, Repr

def NgxEventFlag.bits : NgxEventFlag → BitVec 64
  | .closeEvent => 0x8000
  | .lowatEvent => 0x2000
  | .flushEvent => 0x4000
  | .oneshotEvent => 0x0010
  | .clearEvent => 0x0020
  | .disableEvent => 0x0008

/-- Flags as an `ngx_uint_t`; without any, they are `NGX_LEVEL_EVENT`. -/
def ngxFlags : List NgxEventFlag → BitVec 64
  | [] => 0
  | flag :: flags => flag.bits ||| ngxFlags flags

/-- A connection: `read->active`, `write->active`, and the mask with which its descriptor is registered. -/
structure NgxConnection where
  read_active : Bool
  write_active : Bool
  registered : Option (BitVec 32)
deriving DecidableEq, Repr

/-- `ngx_int_t`, as the functions return it. -/
inductive NgxRet where
  | NGX_OK
  | NGX_ERROR
deriving DecidableEq, Repr

namespace NgxConnection

/-- A connection that has just been made. -/
def fresh : NgxConnection := ⟨false, false, none⟩

/-- The flag `active` of an event. -/
def active (c : NgxConnection) : EvFilter → Bool
  | .read => c.read_active
  | .write => c.write_active

def setActive (c : NgxConnection) (value : Bool) : EvFilter → NgxConnection
  | .read => { c with read_active := value }
  | .write => { c with write_active := value }

/-- `epoll_ctl` of the kernel on the descriptor, if it returns 0. -/
def epollCtl (c : NgxConnection) (op : EpollCtlOp) (events : BitVec 32) : Option NgxConnection :=
  match op, c.registered with
  | .add, none => some { c with registered := some events }
  | .mod, some _ => some { c with registered := some events }
  | .del, some _ => some { c with registered := none }
  | _, _ => none

/-- The events that stand for a direction. -/
def epollEvents : EvFilter → BitVec 32
  | .read => EPOLLIN ||| EPOLLRDHUP
  | .write => EPOLLOUT

/-- The other direction. -/
def otherEvent : EvFilter → EvFilter
  | .read => .write
  | .write => .read

/-- SOURCE: app/nginx-1.28.0/src/event/modules/ngx_ff_host_event_module.c:146-202 -/
def ngxFfEpollAddEvent (c : NgxConnection) (event : EvFilter) (flags : BitVec 64) : NgxConnection × NgxRet :=
  let prev := epollEvents (otherEvent event)
  let (op, events) :=
    if c.active (otherEvent event) then (EpollCtlOp.mod, epollEvents event ||| prev)
    else (EpollCtlOp.add, epollEvents event)
  match c.epollCtl op (events ||| flags.setWidth 32) with
  | none => (c, .NGX_ERROR)
  | some c => (c.setActive true event, .NGX_OK)

/-- SOURCE: app/nginx-1.28.0/src/event/modules/ngx_ff_host_event_module.c:204-260 -/
def ngxFfEpollDelEvent (c : NgxConnection) (event : EvFilter) (flags : BitVec 64) : NgxConnection × NgxRet :=
  if flags &&& NgxEventFlag.closeEvent.bits ≠ 0 then (c.setActive false event, .NGX_OK)
  else
    let prev := epollEvents (otherEvent event)
    let (op, events) :=
      if c.active (otherEvent event) then (EpollCtlOp.mod, prev ||| flags.setWidth 32) else (EpollCtlOp.del, 0)
    match c.epollCtl op events with
    | none => (c, .NGX_ERROR)
    | some c => (c.setActive false event, .NGX_OK)

/-- SOURCE: app/nginx-1.28.0/src/event/modules/ngx_ff_host_event_module.c:262-283 -/
def ngxFfEpollAddConnection (c : NgxConnection) : NgxConnection × NgxRet :=
  match c.epollCtl .add (EPOLLIN ||| EPOLLOUT ||| EPOLLET ||| EPOLLRDHUP) with
  | none => (c, .NGX_ERROR)
  | some c => ((c.setActive true .read).setActive true .write, .NGX_OK)

/-- SOURCE: app/nginx-1.28.0/src/event/modules/ngx_ff_host_event_module.c:286-321 -/
def ngxFfEpollDelConnection (c : NgxConnection) (flags : BitVec 64) : NgxConnection × NgxRet :=
  if flags &&& NgxEventFlag.closeEvent.bits ≠ 0 then ((c.setActive false .read).setActive false .write, .NGX_OK)
  else
    match c.epollCtl .del 0 with
    | none => (c, .NGX_ERROR)
    | some c => ((c.setActive false .read).setActive false .write, .NGX_OK)

end NgxConnection

/-- `ngx_event_actions_t`, the members for events and connections.
SOURCE: app/nginx-1.28.0/src/event/ngx_event.h:170-187 -/
structure NgxEventActions where
  add : NgxConnection → EvFilter → BitVec 64 → NgxConnection × NgxRet
  del : NgxConnection → EvFilter → BitVec 64 → NgxConnection × NgxRet
  enable : NgxConnection → EvFilter → BitVec 64 → NgxConnection × NgxRet
  disable : NgxConnection → EvFilter → BitVec 64 → NgxConnection × NgxRet
  add_conn : NgxConnection → NgxConnection × NgxRet
  del_conn : NgxConnection → BitVec 64 → NgxConnection × NgxRet

/-- SOURCE: app/nginx-1.28.0/src/event/modules/ngx_ff_host_event_module.c:441-452 -/
def ngxFfHostEventActions : NgxEventActions where
  add := NgxConnection.ngxFfEpollAddEvent
  del := NgxConnection.ngxFfEpollDelEvent
  enable := NgxConnection.ngxFfEpollAddEvent
  disable := NgxConnection.ngxFfEpollAddEvent
  add_conn := NgxConnection.ngxFfEpollAddConnection
  del_conn := NgxConnection.ngxFfEpollDelConnection

/-- A call through the table. -/
inductive NgxAction where
  | add (event : EvFilter) (flags : List NgxEventFlag)
  | del (event : EvFilter) (flags : List NgxEventFlag)
  | enable (event : EvFilter) (flags : List NgxEventFlag)
  | disable (event : EvFilter) (flags : List NgxEventFlag)
  | addConn
  | delConn (flags : List NgxEventFlag)
deriving DecidableEq, Repr

def NgxConnection.call (c : NgxConnection) : NgxAction → NgxConnection × NgxRet
  | .add event flags => ngxFfHostEventActions.add c event (ngxFlags flags)
  | .del event flags => ngxFfHostEventActions.del c event (ngxFlags flags)
  | .enable event flags => ngxFfHostEventActions.enable c event (ngxFlags flags)
  | .disable event flags => ngxFfHostEventActions.disable c event (ngxFlags flags)
  | .addConn => ngxFfHostEventActions.add_conn c
  | .delConn flags => ngxFfHostEventActions.del_conn c (ngxFlags flags)

def NgxConnection.step (c : NgxConnection) (action : NgxAction) : NgxConnection := (c.call action).1

end FStack.Model
