import FStack.Model.Kqueue

/-!
# Epoll over a kqueue

`ff_epoll_ctl` and `ff_epoll_wait` (`lib/ff_epoll.c`) for one epoll descriptor, that is, one kqueue,
and descriptors of the F-Stack side.  An epoll registration is two knotes of the same descriptor, for
`EVFILT_READ` and `EVFILT_WRITE`.
-/

set_option autoImplicit false

namespace FStack.Model

open FStack.Prelude

def EPOLLIN : BitVec 32 := 0x001

def EPOLLOUT : BitVec 32 := 0x004

def EPOLLERR : BitVec 32 := 0x008

def EPOLLHUP : BitVec 32 := 0x010

def EPOLLONESHOT : BitVec 32 := 0x40000000

def EPOLLET : BitVec 32 := 0x80000000

def hasBit (mask bit : BitVec 32) : Bool := mask &&& bit ≠ 0

/-- `struct epoll_event`; `data` is the union seen as 64 bits. -/
structure EpollEvent where
  events : BitVec 32
  data : BitVec 64
deriving DecidableEq, Repr

/-- An `int` in the field `ident` of a `struct kevent`. -/
def identOf (fd : BitVec 32) : BitVec 64 := fd.signExtend 64

/-- `data.fd = fd`: the lower half of the union is written. -/
def setDataFd (data : BitVec 64) (fd : BitVec 32) : BitVec 64 := data.extractLsb' 32 32 ++ fd

inductive EpollCtlOp where
  | add
  | mod
  | del
  | other
deriving DecidableEq, Repr

/-- The flags of the change for one direction, which the mask asks for or not.
SOURCE: lib/ff_epoll.c:171-195 -/
def epollFlags (op : EpollCtlOp) (events : BitVec 32) (wanted : Bool) : EvFlags :=
  { EV_CLEAR := hasBit events EPOLLET
    EV_ONESHOT := hasBit events EPOLLONESHOT
    EV_ADD := op = .add
    EV_DISABLE := !wanted
    EV_ENABLE := wanted }

/-- The bit of a direction in the mask of an epoll event. -/
def directionBit : EvFilter → BitVec 32
  | .read => EPOLLIN
  | .write => EPOLLOUT

/-- The change of a call for one direction.
SOURCE: lib/ff_epoll.c:143-145, 183-198 -/
def epollChange (op : EpollCtlOp) (fd : BitVec 32) (event : EpollEvent) (filter : EvFilter) : Kevent :=
  if op = .del then
    { ident := identOf fd, filter := filter, flags := { EV_DELETE := true } }
  else
    { ident := identOf fd, filter := filter, udata := event.data
      flags := epollFlags op event.events (hasBit event.events (directionBit filter)) }

/-- `ff_epoll_ctl`: the knotes after the call, and the error if it fails.
SOURCE: lib/ff_epoll.c:91-207 -/
def ffEpollCtl (env : RegisterEnv) (kq : KnoteTable) (op : EpollCtlOp) (fd : BitVec 32)
    (event : Option EpollEvent) : KnoteTable × Option Errno :=
  if event.isNone ∧ op ≠ .del ∨ op = .other then (kq, some .EINVAL)
  else
    kqueueChanges env kq
      [epollChange op fd (event.getD ⟨0, 0⟩) .read, epollChange op fd (event.getD ⟨0, 0⟩) .write]

/-- The bits that `ff_event_to_epoll` sets.
SOURCE: lib/ff_epoll.c:215-241 -/
def epollBits (kev : Kevent) : BitVec 32 :=
  let event_one : BitVec 32 :=
    match kev.filter with
    | .read => if kev.data ≠ 0 ∨ kev.flags.EV_EOF = false then EPOLLIN else 0
    | .write => EPOLLOUT
  let event_one := if kev.flags.EV_ERROR then event_one ||| EPOLLERR else event_one
  if kev.flags.EV_EOF then
    let event_one := event_one ||| EPOLLHUP
    let event_one := if kev.fflags ≠ 0 then event_one ||| EPOLLERR else event_one
    match kev.filter with
    | .read => event_one ||| EPOLLIN
    | .write => event_one ||| EPOLLERR
  else event_one

/-- `ff_event_to_epoll`: the element of the caller's array, which held `slot`.
SOURCE: lib/ff_epoll.c:209-248 -/
def ffEventToEpoll (slot : EpollEvent) (kev : Kevent) : EpollEvent :=
  { events := epollBits kev
    data := if kev.udata ≠ 0 then kev.udata else setDataFd slot.data (kev.ident.setWidth 32) }

/-- `ff_epoll_wait`: the knotes after the call, and the events, with the kevents they are made from, or
an error.  `events` is what the caller's array holds, if there is one, and `ready` are the active
knotes.
SOURCE: lib/ff_epoll.c:250-288 -/
def ffEpollWait (kq : KnoteTable) (events : Option (ℕ → EpollEvent)) (maxevents : ℤ)
    (ready : List Ready) : KnoteTable × Except Errno (List (Kevent × EpollEvent)) :=
  match events with
  | none => (kq, .error .EINVAL)
  | some slots =>
    if maxevents < 1 then (kq, .error .EINVAL)
    else
      let (kq', kevs) := kqueueScan kq (ready.take maxevents.toNat)
      (kq', .ok (kevs.mapIdx fun i kev => (kev, ffEventToEpoll (slots i) kev)))

/-! ## Runs -/

/-- A call on the epoll descriptor. -/
inductive EpollCall where
  | ctl (env : RegisterEnv) (op : EpollCtlOp) (fd : BitVec 32) (event : Option EpollEvent)
  | wait (events : Option (ℕ → EpollEvent)) (maxevents : ℤ) (ready : List Ready)

def epollCall (kq : KnoteTable) : EpollCall → KnoteTable
  | .ctl env op fd event => (ffEpollCtl env kq op fd event).1
  | .wait events maxevents ready => (ffEpollWait kq events maxevents ready).1

/-- What happens to the knotes of the descriptor, one thing at a time: a control call, or the report of
one active knote. -/
inductive EpollStep where
  | ctl (env : RegisterEnv) (op : EpollCtlOp) (fd : BitVec 32) (event : Option EpollEvent)
  | report (r : Ready)

def EpollCall.steps : EpollCall → List EpollStep
  | .ctl env op fd event => [.ctl env op fd event]
  | .wait events maxevents ready =>
    if events.isNone ∨ maxevents < 1 then [] else (ready.take maxevents.toNat).map .report

def epollStep (kq : KnoteTable) : EpollStep → KnoteTable
  | .ctl env op fd event => (ffEpollCtl env kq op fd event).1
  | .report r => (scanOne kq r).1

/-- The steps of a call do what the call does. -/
theorem epollCall_eq_foldl (kq : KnoteTable) (c : EpollCall) :
    epollCall kq c = c.steps.foldl epollStep kq := by
  cases c with
  | ctl env op fd event => rfl
  | wait events maxevents ready =>
    cases events with
    | none => rfl
    | some slots =>
      simp only [epollCall, ffEpollWait, EpollCall.steps, Option.isNone_some, Bool.false_eq_true,
        false_or]
      split
      · rfl
      · simp only [kqueueScan_table, List.foldl_map, epollStep]

end FStack.Model
