import FStack.Model.HeapList

/-!
# Micro threads and their scheduler

`MtFrame` (`adapter/micro_thread/micro_thread.cpp`) runs threads in user space, one at a time.  A thread
that is not running waits in `_runlist`, in `_sleeplist`, for input and output also in `_iolist`, or in
`_pend_list`, and has a flag for each; a thread without work goes back to the free list of its pool.
Switching is done by saving a context and restoring another, so everything between two switches is one
step.  The daemon thread runs `Loop`, which wakes the other threads.

The fields of the threads are maps from names of threads here.  What the code gets from outside is an
argument: the clock, whether memory for a new thread is there, whether the kqueue takes the descriptors.
`ASSERT` is defined as nothing.
-/

set_option autoImplicit false

namespace FStack.Model

abbrev ThreadId := ℕ

abbrev TaskId := ℕ

def DEFAULT_THREAD_NUM : ℕ := 5000

inductive ThreadType where
  | normal
  | primordial
  | daemon
  | subThread
deriving DecidableEq, Repr

/-- SOURCE: micro_thread.h:176-186 -/
inductive ThreadFlag where
  | freeList
  | ioList
  | sleepList
  | runList
  | pendList
  | subList
deriving DecidableEq, Repr

inductive ThreadState where
  | initial
  | runable
  | running
  | sleeping
  | pending
deriving DecidableEq, Repr

/-- `_start` with its `_args`: a function of the application, `mt_task_process` of a task, or
`DaemonRun`. -/
inductive ThreadStart where
  | entry
  | taskProcess (task : TaskId)
  | daemonRun
deriving DecidableEq, Repr

/-- Where a thread goes on when its context is restored: at the beginning of `Run`, after a call that
has nothing more to do with the scheduler, or in `mt_exec_all_task` after `Wait`. -/
inductive Context where
  | start
  | inside
  | waiting
deriving DecidableEq, Repr

/-- What happens in a run: a task's `Process` begins and has returned, in a thread with the given parent,
`mt_exec_all_task` is called and returns, and a thread becomes runnable. -/
inductive MtEvent where
  | started (parent : Option ThreadId) (task : TaskId)
  | processed (parent : Option ThreadId) (task : TaskId) (rc : ℤ)
  | called (thread : ThreadId) (tasks : List TaskId)
  | returned (thread : ThreadId) (rc : ℤ)
  | runable (thread : ThreadId)
deriving DecidableEq, Repr

/-- A step of the thread that is running.  The daemon runs `Loop`: it does not block, and only it wakes
the threads whose time has come and hands over at the end of a turn. -/
inductive MtStep where
  | createThread (initial : Bool)
  | sleep (ms : ℤ) (now : ℕ)
  | kqueueSchedule (added : Bool) (timeout : ℤ) (now : ℕ)
  | waitNotify (timeout now : ℕ)
  | execAllTask (tasks : List (TaskId × Bool))
  | notifyThread (thread : Option ThreadId)
  | eventNotify (owner : Option ThreadId)
  | swapDaemonThread
  | exit (rc : ℤ)
  | wakeupTimeout (now : ℕ)
  | loopEnd
deriving DecidableEq, Repr

/-- The frame with its thread pool, the fields of the threads, the results of the tasks, and what has
happened, the last event first.  Threads `next, next + 1, …` have not been made yet. -/
structure MtFrame where
  flag : ThreadId → ThreadFlag → Bool
  type : ThreadId → ThreadType
  state : ThreadId → ThreadState
  start : ThreadId → Option ThreadStart
  parent : ThreadId → Option ThreadId
  sub_list : ThreadId → List ThreadId
  wakeup_time : ThreadId → ℕ
  context : ThreadId → Context
  runlist : List ThreadId
  iolist : List ThreadId
  pend_list : List ThreadId
  sleeplist : HeapList ThreadId
  daemon : ThreadId
  primo : ThreadId
  curr_thread : ThreadId
  waitnum : ℤ
  freelist : List ThreadId
  total_num : ℕ
  use_num : ℤ
  max_num : ℕ
  default_thread_num : ℕ
  next : ThreadId
  result : TaskId → Option ℤ
  log : List MtEvent

namespace MtFrame

def setFlag (s : MtFrame) (t : ThreadId) (f : ThreadFlag) : MtFrame :=
  { s with flag := Function.update s.flag t (Function.update (s.flag t) f true) }

def unsetFlag (s : MtFrame) (t : ThreadId) (f : ThreadFlag) : MtFrame :=
  { s with flag := Function.update s.flag t (Function.update (s.flag t) f false) }

def hasFlag (s : MtFrame) (t : ThreadId) (f : ThreadFlag) : Bool := s.flag t f

def setState (s : MtFrame) (t : ThreadId) (st : ThreadState) : MtFrame :=
  { s with state := Function.update s.state t st }

def setWakeupTime (s : MtFrame) (t : ThreadId) (time : ℕ) : MtFrame :=
  { s with wakeup_time := Function.update s.wakeup_time t time }

def saveContext (s : MtFrame) (t : ThreadId) (c : Context) : MtFrame :=
  { s with context := Function.update s.context t c }

def record (s : MtFrame) (e : MtEvent) : MtFrame := { s with log := e :: s.log }

/-! ## Queues -/

/-- SOURCE: micro_thread.cpp:832-840 -/
def insertRunable (s : MtFrame) (t : ThreadId) : MtFrame :=
  let s := (s.setFlag t .runList).setState t .runable
  { s with runlist := s.runlist ++ [t], waitnum := s.waitnum + 1 }.record (.runable t)

/-- SOURCE: micro_thread.cpp:842-850 -/
def removeRunable (s : MtFrame) (t : ThreadId) : MtFrame :=
  let s := s.unsetFlag t .runList
  { s with runlist := s.runlist.tail, waitnum := s.waitnum - 1 }

/-- SOURCE: micro_thread.cpp:788-800 -/
def insertSleep (s : MtFrame) (t : ThreadId) : MtFrame :=
  let s := (s.setFlag t .sleepList).setState t .sleeping
  { s with sleeplist := (s.sleeplist.heapPush s.wakeup_time t).1 }

/-- SOURCE: micro_thread.cpp:802-813 -/
def removeSleep (s : MtFrame) (t : ThreadId) : MtFrame :=
  let s := s.unsetFlag t .sleepList
  { s with sleeplist := (s.sleeplist.heapDelete s.wakeup_time t).1 }

/-- SOURCE: micro_thread.cpp:815-821 -/
def insertIoWait (s : MtFrame) (t : ThreadId) : MtFrame :=
  let s := s.setFlag t .ioList
  { s with iolist := s.iolist ++ [t] }.insertSleep t

/-- SOURCE: micro_thread.cpp:823-830 -/
def removeIoWait (s : MtFrame) (t : ThreadId) : MtFrame :=
  let s := s.unsetFlag t .ioList
  { s with iolist := s.iolist.erase t }.removeSleep t

/-- SOURCE: micro_thread.cpp:852-858 -/
def insertPend (s : MtFrame) (t : ThreadId) : MtFrame :=
  let s := s.setFlag t .pendList
  { s with pend_list := s.pend_list ++ [t] }.setState t .pending

/-- SOURCE: micro_thread.cpp:860-865 -/
def removePend (s : MtFrame) (t : ThreadId) : MtFrame :=
  let s := s.unsetFlag t .pendList
  { s with pend_list := s.pend_list.erase t }

/-! ## Switching -/

/-- What a restored thread does at once: `Run` calls the start function, and `mt_exec_all_task`
returns. -/
def goOn (s : MtFrame) (t : ThreadId) : MtFrame :=
  match s.context t with
  | .start =>
    match s.start t with
    | some (.taskProcess task) => s.record (.started (s.parent t) task)
    | _ => s
  | .inside => s
  | .waiting => s.record (.returned t 0)

/-- `SetActiveThread`, `SetState(RUNNING)` and `RestoreContext`. -/
def switchTo (s : MtFrame) (t : ThreadId) : MtFrame :=
  let s := { s with curr_thread := t }.setState t .running
  (s.goOn t).saveContext t .inside

/-- SOURCE: micro_thread.cpp:711-729 -/
def threadSchdule (s : MtFrame) : MtFrame :=
  match s.runlist with
  | [] => s.switchTo s.daemon
  | t :: _ => (s.removeRunable t).switchTo t

/-- `Thread::SwitchContext`.
SOURCE: micro_thread.cpp:125-131 -/
def switchContext (s : MtFrame) : MtFrame :=
  (s.saveContext s.curr_thread .inside).threadSchdule

/-- A clock plus an `int`, as `utime64_t`. -/
def clockAdd (now : ℕ) (ms : ℤ) : ℕ := ((now + ms) % 2 ^ 64).toNat

/-- `Thread::sleep` with `ScheduleSleep`.
SOURCE: micro_thread.cpp:173-182, 319-330 -/
def sleep (s : MtFrame) (ms : ℤ) (now : ℕ) : MtFrame :=
  let t := s.curr_thread
  ((s.setWakeupTime t (clockAdd now ms)).saveContext t .inside |>.insertSleep t).threadSchdule

/-- `Thread::Wait` with `SchedulePend`.
SOURCE: micro_thread.cpp:184-190, 332-343 -/
def wait (s : MtFrame) : MtFrame :=
  let t := s.curr_thread
  (s.saveContext t .waiting |>.insertPend t).threadSchdule

/-- SOURCE: micro_thread.cpp:867-874 -/
def waitNotify (s : MtFrame) (timeout : ℕ) (now : ℕ) : MtFrame :=
  let t := s.curr_thread
  ((s.setWakeupTime t (clockAdd now timeout)).insertIoWait t).switchContext

/-- `KqueueSchedule` up to its switch; `added` says whether the kqueue takes the descriptors.
SOURCE: micro_thread.cpp:912-958 -/
def kqueueSchedule (s : MtFrame) (added : Bool) (timeout : ℤ) (now : ℕ) : MtFrame :=
  let t := s.curr_thread
  let s := s.setWakeupTime t (clockAdd now timeout)
  if added then (s.insertIoWait t).switchContext else s

/-- SOURCE: micro_thread.cpp:876-896 -/
def notifyThread (s : MtFrame) : Option ThreadId → MtFrame
  | none => s
  | some t =>
    if s.hasFlag t .ioList then
      let s := s.removeIoWait t
      if s.curr_thread = s.daemon then (s.saveContext s.daemon .inside).switchTo t
      else s.insertRunable t
    else s

/-- `InputNotify` and `OutputNotify` of a descriptor whose owner is given.
SOURCE: kqueue_proxy.cpp:449-488 -/
def eventNotify (s : MtFrame) : Option ThreadId → MtFrame
  | none => s
  | some t => if s.hasFlag t .ioList then (s.removeIoWait t).insertRunable t else s

/-- SOURCE: micro_thread.cpp:898-910 -/
def swapDaemonThread (s : MtFrame) : MtFrame :=
  let t := s.curr_thread
  if t ≠ s.daemon then (s.saveContext t .inside |>.insertRunable t).switchTo s.daemon else s

/-- The turns of `WakeupTimeout`; there is one for each sleeping thread at most.
SOURCE: micro_thread.cpp:751-767 -/
def wakeupLoop (now : ℕ) : ℕ → MtFrame → MtFrame
  | 0, s => s
  | turns + 1, s =>
    match s.sleeplist.heapTop with
    | none => s
    | some t =>
      if s.wakeup_time t ≤ now then
        let s := if s.hasFlag t .ioList then s.removeIoWait t else s.removeSleep t
        wakeupLoop now turns (s.insertRunable t)
      else s

/-- SOURCE: micro_thread.cpp:749-768 -/
def wakeupTimeout (s : MtFrame) (now : ℕ) : MtFrame :=
  wakeupLoop now s.sleeplist.count s

/-! ## Threads -/

/-- `AllocThread`; `initial` says whether a new thread gets its stack.
SOURCE: micro_thread.cpp:431-474 -/
def allocThread (s : MtFrame) (initial : Bool) : MtFrame × Option ThreadId :=
  match s.freelist with
  | t :: rest =>
    ({ s.unsetFlag t .freeList with freelist := rest, use_num := s.use_num + 1 }, some t)
  | [] =>
    if s.max_num ≤ s.total_num then (s, none)
    else if initial = false then (s, none)
    else
      let use_num := s.use_num + 1
      ({ s with
          next := s.next + 1
          total_num := s.total_num + 1
          use_num := use_num
          default_thread_num :=
            if (s.default_thread_num : ℤ) < use_num ∧ s.default_thread_num * 2 < s.max_num then
              s.default_thread_num * 2
            else s.default_thread_num }, some s.next)

/-- `Reset` and `CleanState`.
SOURCE: micro_thread.cpp:164-171, 216-226 -/
def reset (s : MtFrame) (t : ThreadId) : MtFrame :=
  { s with
    wakeup_time := Function.update s.wakeup_time t 0
    context := Function.update s.context t .start
    sub_list := Function.update s.sub_list t []
    flag := Function.update s.flag t (fun _ => false)
    type := Function.update s.type t .normal
    state := Function.update s.state t .initial
    start := Function.update s.start t none
    parent := Function.update s.parent t none }

/-- `FreeThread`.  The thread that a pool above its size deletes keeps `FREE_LIST` here.
SOURCE: micro_thread.cpp:476-498 -/
def freeThread (s : MtFrame) (t : ThreadId) : MtFrame :=
  let s := s.reset t
  let s := { s with use_num := s.use_num - 1, freelist := s.freelist ++ [t] }.setFlag t .freeList
  if s.default_thread_num < s.freelist.length ∧ 1 < s.freelist.length then
    { s with
      freelist := s.freelist.tail
      total_num := s.total_num - 1
      default_thread_num :=
        if DEFAULT_THREAD_NUM ≤ s.default_thread_num / 2 then s.default_thread_num / 2
        else s.default_thread_num }
  else s

/-- SOURCE: micro_thread.cpp:636-652 -/
def createThread (s : MtFrame) (start : ThreadStart) (runable initial : Bool) :
    MtFrame × Option ThreadId :=
  match s.allocThread initial with
  | (s, none) => (s, none)
  | (s, some t) =>
    let s := { s with start := Function.update s.start t (some start) }
    (if runable then s.insertRunable t else s, some t)

/-- SOURCE: micro_thread.cpp:264-274 -/
def addSubThread (s : MtFrame) (t sub : ThreadId) : MtFrame :=
  let s :=
    if s.hasFlag sub .subList then s
    else
      { s with
        sub_list := Function.update s.sub_list t (s.sub_list t ++ [sub])
        parent := Function.update s.parent sub (some t) }
  s.setFlag sub .subList

/-- SOURCE: micro_thread.cpp:276-286 -/
def removeSubThread (s : MtFrame) (t sub : ThreadId) : MtFrame :=
  let s :=
    if s.hasFlag sub .subList then
      { s with
        sub_list := Function.update s.sub_list t ((s.sub_list t).erase sub)
        parent := Function.update s.parent sub none }
    else s
  s.unsetFlag sub .subList

/-- SOURCE: micro_thread.cpp:345-356 -/
def scheduleUnpend (s : MtFrame) (t : ThreadId) : MtFrame :=
  (s.removePend t).insertRunable t

/-- SOURCE: micro_thread.cpp:242-257 -/
def wakeupParent (s : MtFrame) (t : ThreadId) : MtFrame :=
  match s.parent t with
  | none => s
  | some p =>
    let s := s.removeSubThread p t
    if s.sub_list p = [] then s.scheduleUnpend p else s

/-- The end of the start function, in which the `Process` of a task has returned `rc`.
SOURCE: mt_api.cpp:490-498 -/
def finishStart (s : MtFrame) (rc : ℤ) : MtFrame :=
  match s.start s.curr_thread with
  | some (.taskProcess task) =>
    { s with result := Function.update s.result task (some rc) }.record
      (.processed (s.parent s.curr_thread) task rc)
  | _ => s

/-- What `Run` does after the start function.
SOURCE: micro_thread.cpp:228-240 -/
def exit (s : MtFrame) (rc : ℤ) : MtFrame :=
  let t := s.curr_thread
  let s := s.finishStart rc
  let s := if s.type t = .subThread then s.wakeupParent t else s
  (s.freeThread t).threadSchdule

/-! ## Tasks -/

/-- The first loop of `mt_exec_all_task`, with the threads that are there already: a thread for each
task, until one cannot be made.
SOURCE: mt_api.cpp:519-531 -/
def createSubs : List (TaskId × Bool) → List ThreadId → MtFrame → MtFrame × List ThreadId × Bool
  | [], list, s => (s, list, true)
  | (task, initial) :: tasks, list, s =>
    match s.createThread (.taskProcess task) false initial with
    | (s, none) => (s, list, false)
    | (s, some sub) =>
      createSubs tasks (list ++ [sub]) { s with type := Function.update s.type sub .subThread }

/-- The second loop of `mt_exec_all_task`.
SOURCE: mt_api.cpp:533-538 -/
def startSubs (t : ThreadId) : List ThreadId → MtFrame → MtFrame
  | [], s => s
  | sub :: list, s => startSubs t list ((s.addSubThread t sub).insertRunable sub)

/-- The loop at `EXIT_LABEL`, for the threads that have not been started.
SOURCE: mt_api.cpp:545-549 -/
def freeSubs : List ThreadId → MtFrame → MtFrame
  | [], s => s
  | sub :: list, s => freeSubs list (s.freeThread sub)

/-- `mt_exec_all_task`, up to the switch of `Wait`; with every task comes whether a new thread for it
gets its stack.  What follows the switch is in `goOn`.
SOURCE: mt_api.cpp:501-553 -/
def execAllTask (s : MtFrame) (tasks : List (TaskId × Bool)) : MtFrame :=
  let t := s.curr_thread
  let s := s.record (.called t (tasks.map Prod.fst))
  if tasks = [] then s.record (.returned t 0)
  else
    match createSubs tasks [] s with
    | (s, list, false) => (freeSubs list s).record (.returned t (-1))
    | (s, list, true) => (startSubs t list s).wait

/-! ## Runs -/

/-- `InitFrame`: `made` of the threads of the pool got their stack, and `waitnum` is what the memory of
the frame holds there, since nothing sets this field.
SOURCE: micro_thread.cpp:386-413, 519-579; micro_thread.h:505 -/
def initFrame (made max_num : ℕ) (waitnum : ℤ) : MtFrame where
  flag := fun (t : ℕ) f => decide (f = .freeList ∧ 1 ≤ t ∧ t < made)
  type t := if t = 0 then .daemon else if t = made then .primordial else .normal
  state t := if t = 0 then .runable else if t = made then .running else .initial
  start t := if t = 0 then some .daemonRun else none
  parent _ := none
  sub_list _ := []
  wakeup_time _ := 0
  context t := if t = made then .inside else .start
  runlist := []
  iolist := []
  pend_list := []
  sleeplist := (HeapList.new 100000).heapResize (max_num * 2)
  daemon := 0
  primo := made
  curr_thread := made
  waitnum := waitnum
  freelist := (List.range made).tail
  total_num := made
  use_num := 1
  max_num := max_num
  default_thread_num := DEFAULT_THREAD_NUM
  next := made + 1
  result _ := none
  log := []

/-- Whether the running thread can take a step: the steps of `Loop` are for the daemon, those that block
or end a thread for the others, and the primordial thread, which has no start function, does not end. -/
def canStep (s : MtFrame) : MtStep → Bool
  | .sleep _ _ | .kqueueSchedule _ _ _ | .waitNotify _ _ | .execAllTask _ => s.curr_thread ≠ s.daemon
  | .exit _ => s.curr_thread ≠ s.daemon && s.curr_thread ≠ s.primo
  | .wakeupTimeout _ | .loopEnd => s.curr_thread = s.daemon
  | _ => true

def act (s : MtFrame) : MtStep → MtFrame
  | .createThread initial => (s.createThread .entry true initial).1
  | .sleep ms now => s.sleep ms now
  | .kqueueSchedule added timeout now => s.kqueueSchedule added timeout now
  | .waitNotify timeout now => s.waitNotify timeout now
  | .execAllTask tasks => s.execAllTask tasks
  | .notifyThread thread => s.notifyThread thread
  | .eventNotify owner => s.eventNotify owner
  | .swapDaemonThread => s.swapDaemonThread
  | .exit rc => s.exit rc
  | .wakeupTimeout now => s.wakeupTimeout now
  | .loopEnd => s.switchContext

def step (s : MtFrame) (a : MtStep) : MtFrame :=
  if s.canStep a then s.act a else s

end MtFrame

end FStack.Model
