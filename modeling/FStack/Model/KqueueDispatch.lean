import FStack.Model.KeventCoexist
import FStack.Model.KqueueProxy

/-!
# Dispatching the events of the kqueue

`KqueueRcvEventList` (`adapter/micro_thread/kqueue_proxy.cpp`) walks through the events that the kqueue has reported
and calls the objects that are registered for their descriptors.

The methods of the objects are virtual, and may do anything to the process, so they are functions on a state of any
type.  `kqueue_assert` is defined as nothing.
-/

set_option autoImplicit false

namespace FStack.Model

/-- SOURCE: lib/ff_event.h:156 -/
def EV_ERROR : ℤ := 0x4000

/-- The process as the loop sees it: the objects of the descriptors, and what their methods do. -/
structure KqObjects (σ : Type) where
  getNotifyObj : σ → BitVec 32 → Option ℕ
  setRcvEvents : σ → ℕ → KqEvents → σ
  inputNotify : σ → ℕ → σ × ℤ
  outputNotify : σ → ℕ → σ × ℤ
  hangupNotify : σ → ℕ → σ
  kqueueCtrlDel : σ → BitVec 32 → KqEvents → σ

/-- A call that the loop makes, with the descriptor of the event. -/
inductive NotifyCall where
  | kqueueCtrlDel (fd : BitVec 32) (events : KqEvents)
  | setRcvEvents (fd : BitVec 32) (obj : ℕ) (events : KqEvents)
  | inputNotify (fd : BitVec 32) (obj : ℕ)
  | outputNotify (fd : BitVec 32) (obj : ℕ)
  | hangupNotify (fd : BitVec 32) (obj : ℕ)
deriving DecidableEq

/-- The process, the variable `revents`, which is declared outside of the loop, and the calls that have been
made. -/
structure KqDispatch (σ : Type) where
  world : σ
  revents : KqEvents
  calls : List NotifyCall

/-- The direction of an event.
SOURCE: kqueue_proxy.cpp:387-393 -/
def filterEvents (filter : ℤ) : KqEvents :=
  (if filter = EVFILT_READ then {.read} else ∅) ∪ if filter = EVFILT_WRITE then {.write} else ∅

/-- `KqFdRefGet` finds a record.
SOURCE: kqueue_proxy.h:252-254 -/
def hasFdRef (maxfd fd : BitVec 32) : Bool := !(maxfd.sle fd || fd.slt 0)

namespace KqDispatch

variable {σ : Type}

def record (s : KqDispatch σ) (world : σ) (call : NotifyCall) : KqDispatch σ :=
  { s with world := world, calls := s.calls ++ [call] }

/-- SOURCE: kqueue_proxy.cpp:409-416 -/
def notifyInput (objs : KqObjects σ) (s : KqDispatch σ) (fd : BitVec 32) (obj : ℕ) : KqDispatch σ × ℤ :=
  if .read ∈ s.revents then
    match objs.inputNotify s.world obj with
    | (world, ret) => (s.record world (.inputNotify fd obj), ret)
  else (s, 0)

/-- SOURCE: kqueue_proxy.cpp:418-425 -/
def notifyOutput (objs : KqObjects σ) (s : KqDispatch σ) (fd : BitVec 32) (obj : ℕ) : KqDispatch σ :=
  if .write ∈ s.revents then s.record (objs.outputNotify s.world obj).1 (.outputNotify fd obj) else s

/-- A round of the loop.
SOURCE: kqueue_proxy.cpp:375-425 -/
def step (objs : KqObjects σ) (maxfd : BitVec 32) (s : KqDispatch σ) (kev : RawKevent) : KqDispatch σ :=
  let osfd := kev.ident.setWidth 32
  if hasFdRef maxfd osfd = false then s
  else
    let s := { s with revents := s.revents ∪ filterEvents kev.filter }
    match objs.getNotifyObj s.world osfd with
    | none => s.record (objs.kqueueCtrlDel s.world osfd s.revents) (.kqueueCtrlDel osfd s.revents)
    | some obj =>
      let s := s.record (objs.setRcvEvents s.world obj s.revents) (.setRcvEvents osfd obj s.revents)
      if kev.filter = EV_ERROR then s.record (objs.hangupNotify s.world obj) (.hangupNotify osfd obj)
      else
        match s.notifyInput objs osfd obj with
        | (s, ret) => if ret ≠ 0 then s else s.notifyOutput objs osfd obj

/-- `KqueueRcvEventList`.
SOURCE: kqueue_proxy.cpp:366-427 -/
def kqueueRcvEventList (objs : KqObjects σ) (maxfd : BitVec 32) (world : σ) (evtlist : List RawKevent) :
    KqDispatch σ :=
  evtlist.foldl (step objs maxfd) ⟨world, ∅, []⟩

end KqDispatch

end FStack.Model
