import FStack.Prelude.ByteMemory

/-!
# `writev` through shared slots

`ff_hook_writev` copies the buffers of the application into the slots of `sh_iov_static`, has F-Stack write
these, and begins again with the bytes that are left (`adapter/syscall/ff_hook_syscall.c`).

What a round does with a slot depends on the lengths of the buffers only, so it is computed from these
(`iovecLocal2Share`), and the bytes are copied afterwards (`fillSlots`).
-/

set_option autoImplicit false

namespace FStack.Model

open FStack.Prelude

/-- SOURCE: adapter/syscall/ff_hook_syscall.c:99-100 -/
def IOV_MAX : ℕ := 16
def IOV_LEN_MAX : ℕ := 2048

/-! ## What a round does with the slots -/

/-- The slot is left as it is, or filled with `n` bytes of the buffer `i` from `off` on. -/
inductive SlotFill where
  | kept
  | copied (i off n : ℕ)
deriving DecidableEq, Repr

/-- What a slot adds to `total`. -/
def SlotFill.counted : SlotFill → ℕ
  | .kept => 0
  | .copied _ _ n => n

/-- The `iov_len` of a slot that is handed to F-Stack. -/
def SlotFill.iov_len : SlotFill → ℕ
  | .kept => IOV_LEN_MAX
  | .copied _ _ n => n

/-- The inner loop, over the slots that are free: what it does with them, and the rest of `len`.
SOURCE: adapter/syscall/ff_hook_syscall.c:1300-1314 -/
def splitSegment (i iov_len : ℕ) : ℕ → ℕ → List SlotFill × ℕ
  | 0, len => ([], len)
  | free + 1, len =>
    let n := min IOV_LEN_MAX len
    let slot := SlotFill.copied i (iov_len - len) n
    if len - n = 0 then ([slot], 0)
    else
      match splitSegment i iov_len free (len - n) with
      | (slots, len) => (slot :: slots, len)

/-- The slots from the first on, and `sh_iov_static_fill_idx_local`; the number of slots is
`sh_iov_static_fill_idx_share`. -/
structure ShareFill where
  slots : List SlotFill
  idx_local : ℕ
deriving DecidableEq, Repr

def ShareFill.after (slots : List SlotFill) (f : ShareFill) : ShareFill :=
  { f with slots := slots ++ f.slots }

def ShareFill.total (f : ShareFill) : ℕ := (f.slots.map SlotFill.counted).sum

/-- The outer loop of `_iovec_local2share_s`, over the lengths of the buffers from the buffer `i` on.
SOURCE: adapter/syscall/ff_hook_syscall.c:1265-1330 -/
def iovecLocal2Share : List ℕ → ℕ → ℕ → ℕ → ShareFill
  | [], i, _, _ => ⟨[], i⟩
  | _ :: _, i, 0, _ => ⟨[], i⟩
  | iov_len :: lens, i, free + 1, skip =>
    if iov_len ≤ skip then
      (iovecLocal2Share lens (i + 1) free (skip - iov_len)).after [.kept]
    else if iov_len - skip ≤ IOV_LEN_MAX then
      (iovecLocal2Share lens (i + 1) free skip).after [.copied i 0 (iov_len - skip)]
    else
      match splitSegment i iov_len (free + 1) (iov_len - skip) with
      | (slots, 0) => (iovecLocal2Share lens (i + 1) (free + 1 - slots.length) skip).after slots
      | (slots, _) => ⟨slots, i⟩

/-! ## Bytes -/

/-- `sh_iov_static`: the length of each slot, and the bytes at its base. -/
structure ShareIov where
  iov_len : ℕ → ℕ
  mem : ℕ → ℕ → UInt8

/-- The bytes that a slot is filled with. -/
def copiedBytes (bufs : List (List UInt8)) (i off n : ℕ) : List UInt8 :=
  ((bufs.getD i []).drop off).take n

/-- What the copies of a round leave in the slots from `j` on. -/
def fillSlots (bufs : List (List UInt8)) : ShareIov → ℕ → List SlotFill → ShareIov
  | sh, _, [] => sh
  | sh, j, .kept :: slots => fillSlots bufs sh (j + 1) slots
  | sh, j, .copied i off n :: slots =>
    fillSlots bufs
      { iov_len := Function.update sh.iov_len j n
        mem := Function.update sh.mem j (writeAt (sh.mem j) 0 (copiedBytes bufs i off n)) }
      (j + 1) slots

/-- The bytes that F-Stack finds in the first `iovcnt` slots. -/
def shareStream (sh : ShareIov) (iovcnt : ℕ) : List UInt8 :=
  (List.range iovcnt).flatMap fun j => readAt (sh.mem j) 0 (sh.iov_len j)

/-- `iovec_share2local_s`.
SOURCE: adapter/syscall/ff_hook_syscall.c:1353-1366 -/
def iovecShare2Local (sh : ShareIov) (idx_share : ℕ) : ShareIov :=
  { sh with iov_len := fun j => if j < idx_share then IOV_LEN_MAX else sh.iov_len j }

/-! ## The call -/

/-- What is returned, the bytes that F-Stack has accepted, and what each round did with the slots. -/
structure HookWritevResult where
  ret : ℤ
  handed : List UInt8
  rounds : List (List SlotFill)
deriving DecidableEq, Repr

/-- The loop.  In the round `k` F-Stack fails if `answers k` is 0; otherwise it accepts that many bytes, or all
there are.
SOURCE: adapter/syscall/ff_hook_syscall.c:1829-1874 -/
def writevLoop (bufs : List (List UInt8)) (answers : ℕ → ℕ) :
    ℕ → ℕ → ShareIov → ℕ → List UInt8 → List (List SlotFill) → Option HookWritevResult
  | 0, _, _, _, _, _ => none
  | fuel + 1, k, sh, sent, handed, rounds =>
    let f := iovecLocal2Share (bufs.map List.length) 0 IOV_MAX sent
    let sh := fillSlots bufs sh 0 f.slots
    let stream := shareStream sh f.slots.length
    let n := min (answers k) stream.length
    let ret : ℤ := if answers k = 0 then -1 else n
    let sh := iovecShare2Local sh f.slots.length
    let sent := sent + n
    let handed := handed ++ stream.take n
    let rounds := rounds ++ [f.slots]
    if ret = f.total ∧ f.idx_local < bufs.length then
      writevLoop bufs answers fuel (k + 1) sh sent handed rounds
    else some ⟨if 0 < sent then (sent : ℤ).bmod (2 ^ 32) else ret, handed, rounds⟩

/-- `ff_hook_writev`, on a socket of F-Stack and with `sh_iov_static` allocated.
SOURCE: adapter/syscall/ff_hook_syscall.c:1809-1875 -/
def ffHookWritev (bufs : List (List UInt8)) (answers : ℕ → ℕ) (sh : ShareIov) (fuel : ℕ) :
    Option HookWritevResult :=
  if bufs = [] then some ⟨-1, [], []⟩ else writevLoop bufs answers fuel 0 sh 0 [] []

end FStack.Model
