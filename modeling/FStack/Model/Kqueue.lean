import FStack.Prelude.Monitored
import Mathlib.Data.BitVec

/-!
# The kqueue

`kqueue_register` and `kqueue_scan` (`freebsd/kern/kern_event.c`) for the two filters that the F-Stack
API uses.  A knote is found by its identifier and filter; of its state only what decides whether and
with which user data it is reported is kept.  That a knote is active, and what its filter then finds
out about the file, are inputs of a scan.
-/

set_option autoImplicit false

namespace FStack.Model

open FStack.Prelude

/-- `EVFILT_READ` and `EVFILT_WRITE`. -/
inductive EvFilter where
  | read
  | write
deriving DecidableEq, Repr

inductive Errno where
  | EINVAL
  | EBADF
  | ENOENT
  | EEXIST
  | ENOMEM
  | other (errno : ℕ)
deriving DecidableEq, Repr

/-- The bits of `flags` in a `struct kevent` that are used. -/
structure EvFlags where
  EV_ADD : Bool := false
  EV_DELETE : Bool := false
  EV_ENABLE : Bool := false
  EV_DISABLE : Bool := false
  EV_ONESHOT : Bool := false
  EV_CLEAR : Bool := false
  EV_RECEIPT : Bool := false
  EV_EOF : Bool := false
  EV_ERROR : Bool := false
deriving DecidableEq, Repr

/-- `struct kevent`, with filters of the type `φ`. -/
structure KeventOf (φ : Type) where
  ident : BitVec 64
  filter : φ
  flags : EvFlags := {}
  fflags : ℕ := 0
  data : ℤ := 0
  udata : BitVec 64 := 0
deriving DecidableEq, Repr

/-- A kevent of one of the two filters. -/
abbrev Kevent := KeventOf EvFilter

/-- A kevent whose filter is any number. -/
abbrev RawKevent := KeventOf ℤ

/-- A knote: the bits of `kn_flags`, `KN_DISABLED` in `kn_status`, and the user data. -/
structure Knote where
  udata : BitVec 64
  disabled : Bool
  oneshot : Bool
  clear : Bool
deriving DecidableEq, Repr

/-- The knotes of a kqueue. -/
abbrev KnoteTable := BitVec 64 → EvFilter → Option Knote

def KnoteTable.set (kq : KnoteTable) (ident : BitVec 64) (filter : EvFilter) (kn : Option Knote) :
    KnoteTable := fun i f => if i = ident ∧ f = filter then kn else kq i f

@[simp] theorem KnoteTable.set_same (kq : KnoteTable) (ident : BitVec 64) (filter : EvFilter)
    (kn : Option Knote) : kq.set ident filter kn ident filter = kn := by
  simp [KnoteTable.set]

theorem KnoteTable.set_ident_ne (kq : KnoteTable) {i ident : BitVec 64} (h : i ≠ ident)
    (filter : EvFilter) (kn : Option Knote) : kq.set ident filter kn i = kq i := by
  funext f
  simp [KnoteTable.set, h]

theorem KnoteTable.set_filter_ne (kq : KnoteTable) (i ident : BitVec 64) {f filter : EvFilter}
    (h : f ≠ filter) (kn : Option Knote) : kq.set ident filter kn i f = kq i f := by
  simp [KnoteTable.set, h]

/-- What a change meets in the process: an error of `fget` for the descriptor, and an error when a new
knote is attached to the file. -/
structure RegisterEnv where
  fget : Option Errno := none
  attach : EvFilter → Option Errno := fun _ => none

/-- The knote that `EV_ADD` makes.
SOURCE: freebsd/kern/kern_event.c:1740-1760 -/
def newKnote (kev : Kevent) : Knote :=
  ⟨kev.udata, kev.flags.EV_DISABLE, kev.flags.EV_ONESHOT, kev.flags.EV_CLEAR⟩

/-- What a change does to a knote that exists: the flags it was made with stay.
SOURCE: freebsd/kern/kern_event.c:1795-1816 -/
def touchKnote (kev : Kevent) (kn : Knote) : Knote :=
  { kn with
    udata := kev.udata
    disabled :=
      if kev.flags.EV_ENABLE then false else if kev.flags.EV_DISABLE then true else kn.disabled }

/-- `kqueue_register`.
SOURCE: freebsd/kern/kern_event.c:1587-1855 -/
def kqueueRegister (env : RegisterEnv) (kq : KnoteTable) (kev : Kevent) :
    Except Errno KnoteTable :=
  if kev.flags.EV_ENABLE && kev.flags.EV_DISABLE then .error .EINVAL
  else if 2 ^ 31 ≤ kev.ident.toNat then .error .EBADF
  else
    match env.fget with
    | some e => .error e
    | none =>
      match kq kev.ident kev.filter with
      | none =>
        if kev.flags.EV_ADD then
          match env.attach kev.filter with
          | some e => .error e
          | none => .ok (kq.set kev.ident kev.filter (some (newKnote kev)))
        else .error .ENOENT
      | some kn =>
        if kev.flags.EV_DELETE then .ok (kq.set kev.ident kev.filter none)
        else .ok (kq.set kev.ident kev.filter (some (touchKnote kev kn)))

/-- The changes of a call that takes no events: they are made one by one up to the first that fails.
SOURCE: freebsd/kern/kern_event.c:1432-1456 -/
def kqueueChanges (env : RegisterEnv) : KnoteTable → List Kevent → KnoteTable × Option Errno
  | kq, [] => (kq, none)
  | kq, kev :: rest =>
    match kqueueRegister env kq kev with
    | .error e => (kq, some e)
    | .ok kq' => kqueueChanges env kq' rest

/-- An active knote that a scan takes from the queue, and what its filter says about the file. -/
structure Ready where
  ident : BitVec 64
  filter : EvFilter
  data : ℤ := 0
  fflags : ℕ := 0
  eof : Bool := false
deriving DecidableEq, Repr

/-- One turn of the loop of `kqueue_scan`: a knote that is not disabled is reported, and dropped if it
is a one-shot one.
SOURCE: freebsd/kern/kern_event.c:2101-2192 -/
def scanOne (kq : KnoteTable) (r : Ready) : KnoteTable × Option Kevent :=
  match kq r.ident r.filter with
  | none => (kq, none)
  | some kn =>
    if kn.disabled then (kq, none)
    else
      (if kn.oneshot then kq.set r.ident r.filter none else kq,
        some {
          ident := r.ident, filter := r.filter, fflags := r.fflags, data := r.data, udata := kn.udata
          flags := { EV_ONESHOT := kn.oneshot, EV_CLEAR := kn.clear, EV_EOF := r.eof } })

/-- The loop of `kqueue_scan` over the active knotes: the knotes that are left, and the events in
order.
SOURCE: freebsd/kern/kern_event.c:2083-2205 -/
def kqueueScan : KnoteTable → List Ready → KnoteTable × List Kevent
  | kq, [] => (kq, [])
  | kq, r :: rest =>
    let (kq', kev) := scanOne kq r
    let (kq'', kevs) := kqueueScan kq' rest
    (kq'', kev.toList ++ kevs)

theorem kqueueScan_table (kq : KnoteTable) (ready : List Ready) :
    (kqueueScan kq ready).1 = ready.foldl (fun kq r => (scanOne kq r).1) kq := by
  induction ready generalizing kq with
  | nil => rfl
  | cons r rest ih => simp [kqueueScan, ih]

end FStack.Model
