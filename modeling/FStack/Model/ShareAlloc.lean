import FStack.Model.HookWritev
import FStack.Model.ZeroCopy

/-!
# Messages in shared memory

The preload library copies an array of `struct iovec`, or a whole `struct msghdr`, into memory that F-Stack can
see (`adapter/syscall/ff_hook_syscall.c`): a block for the array, and one for each buffer.

Which calls of `rte_malloc` are granted is an input, and so are the pointers that a fresh array happens to hold.
-/

set_option autoImplicit false

namespace FStack.Model

/-- A pointer into the block that the call number `block` of `share_mem_alloc` has returned. -/
structure SharePtr where
  block : ℕ
  off : ℕ
deriving DecidableEq, Repr

/-- Whether `rte_malloc` grants a call, what the fresh block of a call holds where an array of `struct iovec` has
its `iov_base`s, and what has been allocated and freed. -/
structure ShareHeap where
  grants : ℕ → Bool
  junk : ℕ → ℕ → Option SharePtr
  calls : ℕ
  allocated : List SharePtr
  freed : List SharePtr

namespace ShareHeap

def start (grants : ℕ → Bool) (junk : ℕ → ℕ → Option SharePtr) : ShareHeap := ⟨grants, junk, 0, [], []⟩

/-- `rte_malloc` refuses a size of 0.
SOURCE: adapter/syscall/ff_hook_syscall.c:54; dpdk/lib/eal/common/rte_malloc.c:60-61 -/
def shareMemAlloc (h : ShareHeap) (size : ℕ) : ShareHeap × Option SharePtr :=
  if size ≠ 0 ∧ h.grants h.calls = true then
    ({ h with calls := h.calls + 1, allocated := h.allocated ++ [⟨h.calls, 0⟩] }, some ⟨h.calls, 0⟩)
  else ({ h with calls := h.calls + 1 }, none)

/-- SOURCE: adapter/syscall/ff_hook_syscall.c:55 -/
def shareMemFree (h : ShareHeap) (addr : SharePtr) : ShareHeap := { h with freed := h.freed ++ [addr] }

/-- `if (addr) share_mem_free(addr)`. -/
def shareMemFreeIf (h : ShareHeap) : Option SharePtr → ShareHeap
  | none => h
  | some addr => h.shareMemFree addr

/-! ## Arrays -/

/-- `iovec_share_free` of an array whose entries have the given bases.
SOURCE: adapter/syscall/ff_hook_syscall.c:1140-1156 -/
def iovecShareFree (h : ShareHeap) (iov : SharePtr) (bases : List (Option SharePtr)) : ShareHeap :=
  (bases.foldl shareMemFreeIf h).shareMemFree iov

/-- The loop of `iovec_share_alloc`: a block for each length, until one is refused.
SOURCE: adapter/syscall/ff_hook_syscall.c:1173-1181, 1241-1252 -/
def allocBases (h : ShareHeap) : List ℕ → ShareHeap × List SharePtr
  | [] => (h, [])
  | iov_len :: lens =>
    match h.shareMemAlloc iov_len with
    | (h, none) => (h, [])
    | (h, some iov_base) =>
      match h.allocBases lens with
      | (h, bases) => (h, iov_base :: bases)

/-- The bases of an array of `n` entries, in the block `block`, after the loop has stopped: those it has stored,
the `NULL` at which it stopped, and what the block held when it was allocated. -/
def partlyFilled (h : ShareHeap) (block : ℕ) (bases : List SharePtr) (n : ℕ) : List (Option SharePtr) :=
  bases.map some ++ none :: (List.range' (bases.length + 1) (n - (bases.length + 1))).map (h.junk block)

/-- `iovec_share_alloc`, of an array with the given lengths; what is returned is the array and its bases.
SOURCE: adapter/syscall/ff_hook_syscall.c:1158-1188 -/
def iovecShareAlloc (h : ShareHeap) (iov : Option (List ℕ)) (iovcnt : ℤ) :
    ShareHeap × Option (SharePtr × List SharePtr) :=
  match iov with
  | none => (h, none)
  | some lens =>
    if iovcnt = 0 then (h, none)
    else
      match h.shareMemAlloc ((16 * iovcnt) % 2 ^ 64).toNat with
      | (h, none) => (h, none)
      | (h, some sh_iov) =>
        let lens := lens.take iovcnt.toNat
        match h.allocBases lens with
        | (h, bases) =>
          if bases.length = lens.length then (h, some (sh_iov, bases))
          else (h.iovecShareFree sh_iov (h.partlyFilled sh_iov.block bases lens.length), none)

/-- `iovec_share_alloc_s`, which frees the entries before the one that is refused.
SOURCE: adapter/syscall/ff_hook_syscall.c:1229-1262 -/
def iovecShareAllocS (h : ShareHeap) : ShareHeap × Option (SharePtr × List SharePtr) :=
  match h.shareMemAlloc (16 * IOV_MAX) with
  | (h, none) => (h, none)
  | (h, some sh_iov_static) =>
    match h.allocBases (List.replicate IOV_MAX IOV_LEN_MAX) with
    | (h, bases) =>
      if bases.length = IOV_MAX then (h, some (sh_iov_static, bases))
      else (h.iovecShareFree sh_iov_static (bases.map some), none)

end ShareHeap

/-! ## Messages -/

/-- The fields of a `struct msghdr` that decide what is allocated: the lengths of the name and of the control
message, where there are any, and the array. -/
structure CallerMsg where
  msg_name : Option ℕ
  msg_iov : Option (List ℕ)
  msg_iovlen : ℕ
  msg_control : Option ℕ
deriving DecidableEq, Repr

/-- A `struct msghdr` in shared memory. -/
structure ShareMsg where
  hdr : SharePtr
  msg_name : Option SharePtr
  msg_iov : Option (SharePtr × List (Option SharePtr))
  msg_control : Option SharePtr
deriving DecidableEq, Repr

namespace ShareHeap

/-- SOURCE: adapter/syscall/ff_hook_syscall.c:1368-1388 -/
def msghdrShareFree (h : ShareHeap) (msg : ShareMsg) : ShareHeap :=
  let h := (h.shareMemFreeIf msg.msg_name).shareMemFreeIf msg.msg_control
  let h :=
    match msg.msg_iov with
    | none => h
    | some (iov, bases) => h.iovecShareFree iov bases
  h.shareMemFree msg.hdr

/-- A field that is allocated when the caller has it: the heap, the pointer, and whether to go on. -/
def allocField (h : ShareHeap) : Option ℕ → ShareHeap × Option SharePtr × Bool
  | none => (h, none, true)
  | some len =>
    match h.shareMemAlloc len with
    | (h, none) => (h, none, false)
    | (h, some addr) => (h, some addr, true)

/-- `msghdr_share_alloc`.  The array is asked for with an `int`.
SOURCE: adapter/syscall/ff_hook_syscall.c:1390-1434 -/
def msghdrShareAlloc (h : ShareHeap) (msg : CallerMsg) : ShareHeap × Option ShareMsg :=
  match h.shareMemAlloc 56 with
  | (h, none) => (h, none)
  | (h, some hdr) =>
    match h.allocField msg.msg_name with
    | (h, msg_name, false) => (h.msghdrShareFree ⟨hdr, msg_name, none, none⟩, none)
    | (h, msg_name, true) =>
      match h.allocField msg.msg_control with
      | (h, msg_control, false) => (h.msghdrShareFree ⟨hdr, msg_name, none, msg_control⟩, none)
      | (h, msg_control, true) =>
        match h.iovecShareAlloc msg.msg_iov (int32 msg.msg_iovlen) with
        | (h, none) => (h.msghdrShareFree ⟨hdr, msg_name, none, msg_control⟩, none)
        | (h, some (iov, bases)) => (h, some ⟨hdr, msg_name, some (iov, bases.map some), msg_control⟩)

end ShareHeap

/-- A call of one of the three allocators. -/
inductive ShareCall where
  | iovecShareAlloc (iov : Option (List ℕ)) (iovcnt : ℤ)
  | iovecShareAllocS
  | msghdrShareAlloc (msg : Option CallerMsg)
deriving DecidableEq, Repr

namespace ShareHeap

/-- The heap after the call, and whether it returns `NULL`. -/
def shareCall (h : ShareHeap) : ShareCall → ShareHeap × Bool
  | .iovecShareAlloc iov iovcnt => ((h.iovecShareAlloc iov iovcnt).1, (h.iovecShareAlloc iov iovcnt).2.isNone)
  | .iovecShareAllocS => (h.iovecShareAllocS.1, h.iovecShareAllocS.2.isNone)
  | .msghdrShareAlloc none => (h, true)
  | .msghdrShareAlloc (some msg) => ((h.msghdrShareAlloc msg).1, (h.msghdrShareAlloc msg).2.isNone)

end ShareHeap

end FStack.Model
