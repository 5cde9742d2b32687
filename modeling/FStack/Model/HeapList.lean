import Mathlib.Algebra.Order.Ring.Int

/-!
# The heap of sleeping threads and timers

`HeapList` (`adapter/micro_thread/heap.h`) is an array of pointers to entries, filled from the place 1 on.
Every entry has a field with its place, 0 while it is in no heap, and a virtual `HeapValue`, which is
the wakeup time of a thread or the expiry of a timer.  Here the entries are the elements of a type `ε`;
the fields are a part of the heap, and `HeapValue` is a parameter of the functions.  `heap_assert` is
defined as nothing.

The loops of `HeapUp` and `HeapDown` come with a bound on their turns, the number of entries, which they
do not reach.
-/

set_option autoImplicit false

namespace FStack.Model

/-- `_list`, `_max`, `_count`, and the `_index` of every entry. -/
structure HeapList (ε : Type) where
  list : ℕ → Option ε := fun _ => none
  max : ℕ
  count : ℕ := 0
  index : ε → ℕ := fun _ => 0

namespace HeapList

variable {ε : Type}

/-- SOURCE: heap.h:102-108 -/
def new (max : ℕ) : HeapList ε :=
  { max := if 0 < max then max else 100000 }

/-- `HeapResize`, the allocation of the larger array going through.
SOURCE: heap.h:118-134 -/
def heapResize (h : HeapList ε) (size : ℕ) : HeapList ε :=
  if size ≤ h.max then h else { h with max := size }

/-- SOURCE: heap.h:149-151 -/
def heapTop (h : HeapList ε) : Option ε :=
  if 0 < h.count then h.list 1 else none

/-- The `HeapValue` of the entry at a place. -/
def valueAt (h : HeapList ε) (value : ε → ℕ) (i : ℕ) : ℕ :=
  ((h.list i).map value).getD 0

variable [DecidableEq ε]

def setIndex (h : HeapList ε) (e : ε) (i : ℕ) : HeapList ε :=
  { h with index := Function.update h.index e i }

/-- `_list[i]->SetIndex(i)`. -/
def setIndexAt (h : HeapList ε) (i : ℕ) : HeapList ε :=
  match h.list i with
  | some e => h.setIndex e i
  | none => h

def setSlot (h : HeapList ε) (i : ℕ) (o : Option ε) : HeapList ε :=
  { h with list := Function.update h.list i o }

@[simp] theorem setIndexAt_list (h : HeapList ε) (i : ℕ) : (h.setIndexAt i).list = h.list := by
  unfold setIndexAt
  split <;> rfl

@[simp] theorem setIndexAt_count (h : HeapList ε) (i : ℕ) : (h.setIndexAt i).count = h.count := by
  unfold setIndexAt
  split <;> rfl

@[simp] theorem setIndexAt_max (h : HeapList ε) (i : ℕ) : (h.setIndexAt i).max = h.max := by
  unfold setIndexAt
  split <;> rfl

theorem setIndexAt_index (h : HeapList ε) {i : ℕ} {e : ε} (he : h.list i = some e) :
    (h.setIndexAt i).index = Function.update h.index e i := by
  simp [setIndexAt, setIndex, he]

/-- The entries at two places change places. -/
def swapAt (h : HeapList ε) (i j : ℕ) : HeapList ε :=
  let tmp := h.list j
  (((h.setSlot j (h.list i)).setSlot i tmp).setIndexAt i).setIndexAt j

/-- The turns of `HeapUp` from `pos` on.
SOURCE: heap.h:173-193 -/
def heapUpFrom (value : ε → ℕ) : ℕ → ℕ → HeapList ε → HeapList ε
  | 0, _, h => h
  | turns + 1, pos, h =>
    if pos / 2 < 1 then h
    else if h.valueAt value pos < h.valueAt value (pos / 2) then
      heapUpFrom value turns (pos / 2) (h.swapAt pos (pos / 2))
    else h

/-- SOURCE: heap.h:171-194 -/
def heapUp (value : ε → ℕ) (h : HeapList ε) : HeapList ε :=
  heapUpFrom value h.count h.count h

/-- The son that `HeapDown` compares with.
SOURCE: heap.h:206-220 -/
def minSon (value : ε → ℕ) (h : HeapList ε) (pos : ℕ) : ℕ :=
  if pos * 2 = h.count then pos * 2
  else if h.valueAt value (pos * 2 + 1) < h.valueAt value (pos * 2) then pos * 2 + 1
  else pos * 2

/-- The turns of `HeapDown` from `pos` on.
SOURCE: heap.h:200-235 -/
def heapDownFrom (value : ε → ℕ) : ℕ → ℕ → HeapList ε → HeapList ε
  | 0, _, h => h
  | turns + 1, pos, h =>
    if h.count < pos * 2 then h
    else if h.valueAt value (h.minSon value pos) < h.valueAt value pos then
      heapDownFrom value turns (h.minSon value pos) (h.swapAt pos (h.minSon value pos))
    else h

/-- SOURCE: heap.h:197-236 -/
def heapDown (value : ε → ℕ) (h : HeapList ε) (index : ℕ) : HeapList ε :=
  heapDownFrom value h.count index h

/-- A new last entry. -/
def putLast (h : HeapList ε) (item : ε) : HeapList ε :=
  let h := { h with count := h.count + 1 }
  (h.setSlot h.count (some item)).setIndex item h.count

/-- SOURCE: heap.h:239-258 -/
def heapPush (value : ε → ℕ) (h : HeapList ε) (item : ε) : HeapList ε × ℤ :=
  if h.max ≤ h.count then (h, -1)
  else if h.index item ≠ 0 then (h, -2)
  else ((h.putLast item).heapUp value, 0)

/-- The last entry goes to the place `pos`, and the last place is cleared. -/
def moveLast (h : HeapList ε) (pos : ℕ) : HeapList ε :=
  let h := (h.setSlot pos (h.list h.count)).setIndexAt pos
  { h.setSlot h.count none with count := h.count - 1 }

/-- The part that `HeapPop` and `HeapDelete` share: the last entry goes to the place `pos`, and down
from there. -/
def fillHole (value : ε → ℕ) (h : HeapList ε) (pos : ℕ) : HeapList ε :=
  (h.moveLast pos).heapDown value pos

/-- SOURCE: heap.h:261-279 -/
def heapPop (value : ε → ℕ) (h : HeapList ε) : HeapList ε × Option ε :=
  if h.count = 0 then (h, none)
  else
    match h.list 1 with
    | none => (h.fillHole value 1, none)
    | some top => ((h.fillHole value 1).setIndex top 0, some top)

/-- SOURCE: heap.h:281-305 -/
def heapDelete (value : ε → ℕ) (h : HeapList ε) (item : ε) : HeapList ε × ℤ :=
  if h.count = 0 then (h, -1)
  else
    let pos := h.index item
    if h.count < pos ∨ pos = 0 then (h, -2)
    else
      match h.list pos with
      | none => (h.fillHole value pos, 0)
      | some del => ((h.fillHole value pos).setIndex del 0, 0)

end HeapList

/-! ## Timers -/

/-- The heap of `CTimerMng`, and the `_time_expired` of every timer. -/
structure CTimerMng (ε : Type) where
  heap : HeapList ε
  expired : ε → ℕ

/-- A call of the timer manager; `now` is the clock that `start_timer` reads. -/
inductive TimerCall (ε : Type) where
  | start (timer : ε) (interval now : ℕ)
  | stop (timer : ε)

namespace CTimerMng

variable {ε : Type} [DecidableEq ε]

/-- SOURCE: heap_timer.cpp:49-64 -/
def startTimer (m : CTimerMng ε) (timer : ε) (interval now : ℕ) : CTimerMng ε × Bool :=
  let expired := Function.update m.expired timer ((now + interval) % 2 ^ 64)
  let res := m.heap.heapPush expired timer
  ({ heap := res.1, expired := expired }, 0 ≤ res.2)

/-- SOURCE: heap_timer.cpp:66-74 -/
def stopTimer (m : CTimerMng ε) (timer : ε) : CTimerMng ε :=
  { m with heap := (m.heap.heapDelete m.expired timer).1 }

def call (m : CTimerMng ε) : TimerCall ε → CTimerMng ε
  | .start timer interval now => (m.startTimer timer interval now).1
  | .stop timer => m.stopTimer timer

/-- `check_expired`.  The calls that the `timer_notify` of every timer makes are given; a list that is
too short stands for a loop that goes on.
SOURCE: heap_timer.cpp:76-90 -/
def checkExpired (now : ℕ) : List (List (TimerCall ε)) → CTimerMng ε → Option (CTimerMng ε)
  | notified, m =>
    match m.heap.heapTop with
    | none => some m
    | some timer =>
      if m.expired timer ≤ now then
        match notified with
        | [] => none
        | calls :: notified => checkExpired now notified (calls.foldl call (m.stopTimer timer))
      else some m

end CTimerMng

end FStack.Model
