import Mathlib.Data.Nat.Count

/-!
# The hook of `select`

`ff_hook_select` (`adapter/syscall/ff_hook_syscall.c`) splits each of the three sets into one for the descriptors of
F-Stack, which are numbered from `ff_kernel_max_fd` on, and one for those of the kernel.  It asks the `select` of
F-Stack and that of the kernel by turns, neither of which blocks, until F-Stack reports something or the time is
over, and puts the answers together in the sets of the caller.

An `fd_set` is the function of its bits; it is copied and cleared by words of 64 bits.  The sets that were split, and
the shared ones that F-Stack gets, are kept by the thread from one call to the next.  A run records which `select` was
called in which round, with which sets, and what it reported.  The request macros are those of a build without
`FF_USE_RING_IPC`, and the adapter is initialised.
-/

set_option autoImplicit false

namespace FStack.Model

/-- An `fd_set`. -/
abbrev FdSet : Type := ℕ → Bool

namespace FdSet

/-- An `fd_mask` of a set. -/
def word (s : FdSet) (i : ℕ) : BitVec 64 :=
  (BitVec.ofBoolListLE ((List.range 64).map fun j => s (64 * i + j))).setWidth 64

/-- `FD_SET`. -/
def add (s : FdSet) (fd : ℕ) : FdSet := Function.update s fd true

/-- `memset` of words to 0. -/
def clear (s : FdSet) (words : ℕ) : FdSet := fun fd => !decide (fd < 64 * words) && s fd

/-- `memcpy` of words. -/
def copy (s : FdSet) (source : FdSet) (words : ℕ) : FdSet := fun fd => if fd < 64 * words then source fd else s fd

end FdSet

/-- The words of a set from the one with number `i` on, until one is not 0. -/
def firstWord (ai : FdSet) : ℕ → ℕ → Option ℕ
  | 0, _ => none
  | n + 1, i => if ai.word i = 0#64 then firstWord ai n (i + 1) else some (64 * i + (ai.word i).ctz.toNat)

/-- SOURCE: adapter/syscall/ff_hook_syscall.c:318-332 -/
def ff_bitmap_first_set (ai : FdSet) (set_words : ℕ) : Option ℕ := firstWord ai set_words 0

/-- The shift to the right is that of a signed number.
SOURCE: adapter/syscall/ff_hook_syscall.c:334-357 -/
def ff_bitmap_next_set (ai : FdSet) (i set_words : ℕ) : Option ℕ :=
  if i / 64 < set_words then
    let t := (ai.word (i / 64)).sshiftRight (i % 64) <<< (i % 64)
    if t = 0#64 then firstWord ai (set_words - (i / 64 + 1)) (i / 64 + 1) else some (t.ctz.toNat + i / 64 * 64)
  else none

/-- The descriptors that a loop over a set visits, from the first one on, while there are more. -/
def visitFds (ai : FdSet) (set_words : ℕ) (more : ℕ → Bool) : ℕ → Option ℕ → List ℕ
  | n + 1, some fd =>
    if more fd then fd :: visitFds ai set_words more n (ff_bitmap_next_set ai (fd + 1) set_words) else []
  | _, _ => []

/-- The descriptors that a loop over a set visits; there are at most as many as bits in its words. -/
def fdsOf (ai : FdSet) (set_words : ℕ) (more : ℕ → Bool) : List ℕ :=
  visitFds ai set_words more (64 * set_words) (ff_bitmap_first_set ai set_words)

/-- The three sets of a `select`. -/
inductive SelectKind where
  | read
  | write
  | except
deriving DecidableEq, Repr

/-- The flag that the loop over a set sets: that over the second sets `have_ff_exceptfd`, and that over the third
`have_ff_writefd`.
SOURCE: adapter/syscall/ff_hook_syscall.c:2845, 2873, 2901 -/
def SelectKind.flag : SelectKind → SelectKind
  | .read => .read
  | .write => .except
  | .except => .write

/-- What a `select` reports, or that it fails. -/
abbrev SelectAnswer : Type := Option (SelectKind → ℕ → Bool)

/-- A call of a `select`: the round, whether it is that of the kernel, what it was given, and its answer. -/
structure SelectCall where
  round : ℕ
  kernel : Bool
  nfds : ℕ
  sets : SelectKind → Option FdSet
  answer : SelectAnswer

/-- A set after a `select` that does not fail: of the words that it looks at, what is ready stays.
SOURCE: freebsd/kern/sys_generic.c:1187-1360 -/
def selected (nfds : ℕ) (ready : ℕ → Bool) (s : FdSet) : FdSet := fun fd =>
  if fd < 64 * ((nfds + 63) / 64) then decide (fd < nfds) && s fd && ready fd else s fd

/-- How many descriptors below `n` are in a set. -/
def countSet (n : ℕ) (s : Option FdSet) : ℕ :=
  match s with
  | none => 0
  | some s => Nat.count (fun fd => s fd = true) n

/-- How many descriptors below `n` are in three sets. -/
def countSets (n : ℕ) (sets : SelectKind → Option FdSet) : ℕ :=
  countSet n (sets .read) + countSet n (sets .write) + countSet n (sets .except)

/-- What the thread keeps: the sets that were split, the shared ones, and the `nfds` that F-Stack was asked with. -/
structure SelectLocals where
  ff : SelectKind → FdSet
  kernel : SelectKind → FdSet
  share : SelectKind → FdSet
  nfds : ℕ

/-- A call: `nfds`, the boundary between the descriptors, the sets, the timeout in seconds and microseconds; whether
the shared memory is there, the clock in milliseconds unless it fails, and what the kernel answers before the first
round. -/
structure SelectInput where
  nfds : ℤ
  ff_kernel_max_fd : ℕ
  fds : SelectKind → Option FdSet
  timeout : Option (ℤ × ℤ)
  shares : Bool
  clock : Option ℤ
  early : SelectAnswer

/-- A round: the answers of F-Stack and, if it is asked, of the kernel, and the clock at its end. -/
structure SelectRound where
  ff : SelectAnswer
  kernel : SelectAnswer
  now : ℤ

/-- The variables of the first part. -/
structure SelectSplit where
  have_ff : SelectKind → Bool
  max_ff_fd : ℕ
  ff : SelectKind → FdSet
  have_kernel_fd : Bool
  max_kernel_fd : ℕ
  kernel : SelectKind → FdSet

/-- One descriptor goes to one side.
SOURCE: adapter/syscall/ff_hook_syscall.c:2843-2857 -/
def SelectSplit.put (max : ℕ) (kind : SelectKind) (s : SelectSplit) (fd : ℕ) : SelectSplit :=
  if max ≤ fd then
    { s with
      have_ff := Function.update s.have_ff kind.flag true
      max_ff_fd := if s.max_ff_fd < fd - max then fd - max else s.max_ff_fd
      ff := Function.update s.ff kind ((s.ff kind).add (fd - max)) }
  else
    { s with
      have_kernel_fd := true
      max_kernel_fd := if s.max_kernel_fd < fd then fd else s.max_kernel_fd
      kernel := Function.update s.kernel kind ((s.kernel kind).add fd) }

/-- The variables of the rest: the sets of the caller, the shared ones, what the kernel returned, whether it was asked,
the round, and the calls. -/
structure SelectRun where
  fds : SelectKind → Option FdSet
  share : SelectKind → FdSet
  kernel_ret : ℤ
  asked : Bool
  round : ℕ
  calls : List SelectCall

/-- How a run ends: it is still polling when there are no more rounds, it returns, or it writes where nothing is. -/
inductive SelectEnd where
  | polling
  | returned (ret : ℤ)
  | fault
deriving DecidableEq, Repr

namespace SelectInput

/-- `nfds` after the first lines. -/
def limit (input : SelectInput) : ℤ := if 1024 < input.nfds then 1024 else input.nfds

/-- `set_words`; the division is that of C.
SOURCE: adapter/syscall/ff_hook_syscall.c:2815 -/
def words (input : SelectInput) : ℤ := (input.limit + 63).tdiv 64

/-- The part for one of the sets.
SOURCE: adapter/syscall/ff_hook_syscall.c:2839-2921 -/
def splitSet (input : SelectInput) (s : SelectSplit) (kind : SelectKind) : SelectSplit :=
  match input.fds kind with
  | none => s
  | some fds =>
    (fdsOf fds input.words.toNat fun fd => (fd : ℤ) < input.limit).foldl
      (SelectSplit.put input.ff_kernel_max_fd kind)
      { s with
        ff := Function.update s.ff kind ((s.ff kind).clear input.words.toNat)
        kernel := Function.update s.kernel kind ((s.kernel kind).clear input.words.toNat) }

/-- The descriptors of the sets are split.
SOURCE: adapter/syscall/ff_hook_syscall.c:2837-2922 -/
def split (input : SelectInput) (locals : SelectLocals) : SelectSplit :=
  let s := ⟨fun _ => false, 0, locals.ff, false, 0, locals.kernel⟩
  input.splitSet (input.splitSet (input.splitSet s .read) .write) .except

end SelectInput

namespace SelectSplit

/-- A descriptor of F-Stack was found. -/
def haveFf (s : SelectSplit) : Bool := s.have_ff .read || s.have_ff .write || s.have_ff .except

/-- The words that are copied for F-Stack, and for the kernel.
SOURCE: adapter/syscall/ff_hook_syscall.c:2932-2941 -/
def ffWords (s : SelectSplit) : ℕ := if s.haveFf then (s.max_ff_fd + 1 + 63) / 64 else 0

def kernelWords (s : SelectSplit) : ℕ := (s.max_kernel_fd + 1 + 63) / 64

end SelectSplit

namespace SelectRun

/-- The kernel is asked, and whether it answers.
SOURCE: adapter/syscall/ff_hook_syscall.c:2999-3013, 3035-3046 -/
def askKernel (run : SelectRun) (s : SelectSplit) (answer : SelectAnswer) : SelectRun × Bool :=
  let sets := fun kind => (run.fds kind).map fun set => set.copy (s.kernel kind) s.kernelWords
  let calls := run.calls ++ [⟨run.round, true, s.max_kernel_fd + 1, sets, answer⟩]
  match answer with
  | none => ({ run with fds := sets, kernel_ret := -1, asked := true, calls := calls }, false)
  | some ready =>
    let sets := fun kind => (sets kind).map (selected (s.max_kernel_fd + 1) (ready kind))
    ({ run with
        fds := sets
        kernel_ret := countSets (s.max_kernel_fd + 1) sets
        asked := true
        calls := calls }, true)

/-- F-Stack is asked, and what it returns.
SOURCE: adapter/syscall/ff_hook_syscall.c:2946-2992, adapter/syscall/ff_socket_ops.c:421-431 -/
def askFf (run : SelectRun) (s : SelectSplit) (locals : SelectLocals) (answer : SelectAnswer) : SelectRun × ℤ :=
  let nfds := if s.haveFf then s.max_ff_fd + 1 else locals.nfds
  let share := fun kind => if s.have_ff kind then (run.share kind).copy (s.ff kind) s.ffWords else run.share kind
  let sets := fun kind => if s.have_ff kind then some (share kind) else none
  let run := { run with
    share := share
    round := run.round + 1
    calls := run.calls ++ [⟨run.round + 1, false, nfds, sets, answer⟩] }
  match answer with
  | none => (run, -1)
  | some ready =>
    let after := fun kind => (sets kind).map (selected nfds (ready kind))
    ({ run with share := fun kind => (after kind).getD (share kind) }, countSets nfds after)

/-- The descriptors of a shared set are put into a set of the caller; nothing is there to be written if this is
`NULL`.
SOURCE: adapter/syscall/ff_hook_syscall.c:3050-3057 -/
def giveSet (words max : ℕ) (share : FdSet) : Option FdSet → Option (Option FdSet)
  | some fds => some (some ((fdsOf share words fun _ => true).foldl (fun fds fd => fds.add (fd + max)) fds))
  | none => if fdsOf share words (fun _ => true) = [] then some none else none

/-- A shared set is given back if its flag is set. -/
def giveKind (run : SelectRun) (s : SelectSplit) (words max : ℕ) (kind : SelectKind) : Option SelectRun :=
  if s.have_ff kind then
    (giveSet words max (run.share kind) (run.fds kind)).map fun fds =>
      { run with fds := Function.update run.fds kind fds }
  else some run

/-- The answers of F-Stack are put into the sets of the caller.
SOURCE: adapter/syscall/ff_hook_syscall.c:3048-3073 -/
def giveBack (run : SelectRun) (s : SelectSplit) (words max : ℕ) : Option SelectRun := do
  let run ← run.giveKind s words max .read
  let run ← run.giveKind s words max .write
  run.giveKind s words max .except

/-- The part behind `select_exit`, where the kernel is asked if it was not yet.
SOURCE: adapter/syscall/ff_hook_syscall.c:3030-3077 -/
def exit (run : SelectRun) (s : SelectSplit) (words max : ℕ) (ret : ℤ) (answer : SelectAnswer) :
    SelectRun × SelectEnd :=
  let (run, ok) := if s.have_kernel_fd && !run.asked then run.askKernel s answer else (run, true)
  if ok then
    if 0 < ret then
      match run.giveBack s words max with
      | some run => (run, .returned (ret + run.kernel_ret))
      | none => (run, .fault)
    else (run, .returned (ret + run.kernel_ret))
  else (run, .returned run.kernel_ret)

end SelectRun

namespace SelectInput

/-- The time is over at the end of a round; `start` is the clock at the beginning.
SOURCE: adapter/syscall/ff_hook_syscall.c:2924-2930, 3015-3027 -/
def timeOver (input : SelectInput) (start now : ℤ) : Bool :=
  match input.timeout with
  | none => false
  | some (sec, usec) => sec = 0 ∧ usec = 0 ∨ start + sec * 1000 + usec.tdiv 1000 ≤ now

/-- The loop.
SOURCE: adapter/syscall/ff_hook_syscall.c:2945-3029 -/
def rounds (input : SelectInput) (locals : SelectLocals) (start : ℤ) (s : SelectSplit) :
    List SelectRound → SelectRun → SelectRun × SelectEnd
  | [], run => (run, .polling)
  | r :: rest, run =>
    let (run, ret) := run.askFf s locals r.ff
    if ret < 0 then (run, .returned ret)
    else if 0 < ret then run.exit s input.words.toNat input.ff_kernel_max_fd ret r.kernel
    else
      let (run, ok) := if s.have_kernel_fd then run.askKernel s r.kernel else (run, true)
      if !ok then run.exit s input.words.toNat input.ff_kernel_max_fd (-1) r.kernel
      else if input.timeOver start r.now then run.exit s input.words.toNat input.ff_kernel_max_fd 0 r.kernel
      else rounds input locals start s rest run

/-- `ff_linux_select` as it is.
SOURCE: adapter/syscall/ff_hook_syscall.c:2811-2813 -/
def linuxSelect (input : SelectInput) (run : SelectRun) : SelectRun × SelectEnd :=
  let run := { run with calls := [⟨0, true, input.limit.toNat, run.fds, input.early⟩] }
  match input.early with
  | none => (run, .returned (-1))
  | some ready =>
    let fds := fun kind => (run.fds kind).map (selected input.limit.toNat (ready kind))
    ({ run with fds := fds }, .returned (countSets input.limit.toNat fds))

/-- `ff_hook_select`.  A size that is negative clears all memory behind a set.
SOURCE: adapter/syscall/ff_hook_syscall.c:2771-3078 -/
def ff_hook_select (input : SelectInput) (locals : SelectLocals) (rs : List SelectRound) : SelectRun × SelectEnd :=
  let run : SelectRun := ⟨input.fds, locals.share, 0, false, 0, []⟩
  if 1024 ≤ input.ff_kernel_max_fd then input.linuxSelect run
  else if !input.shares then (run, .returned (-1))
  else if input.words < 0 ∧ ∃ kind ∈ [SelectKind.read, .write, .except], (input.fds kind).isSome then (run, .fault)
  else
    let s := input.split locals
    let run := { run with fds := fun kind => (input.fds kind).map (·.clear input.words.toNat) }
    if input.timeout.isSome && input.clock.isNone then
      run.exit s input.words.toNat input.ff_kernel_max_fd (-1) input.early
    else input.rounds locals (input.clock.getD 0) s rs run

end SelectInput

end FStack.Model
