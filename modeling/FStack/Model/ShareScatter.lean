import FStack.Model.MsgIov
import FStack.Model.ShareAlloc

/-!
# `readv` and `recvmsg` through shared memory

The preload library has F-Stack store what it receives in shared buffers, copies it into the buffers of the
application and frees the shared ones (`adapter/syscall/ff_hook_syscall.c`).  The FreeBSD stack consumes the shared
array in place; `ff_recvmsg` writes the array back, and `ff_readv` does not (`lib/ff_syscall_wrapper.c`).

What the socket has for the call, and whether the stack succeeds, is an input.
-/

set_option autoImplicit false

namespace FStack.Model

open FStack.Prelude

/-- An entry of the shared array, with the bytes of the block that its base points into. -/
structure ShareEntry where
  iov_base : SharePtr
  iov_len : ℕ
  mem : ℕ → UInt8

/-- What the stack does: the bytes that the socket has, whether it succeeds, and the lengths of the name and of the
control message that it stores in the `msghdr`. -/
structure RecvAnswer where
  data : List UInt8
  ok : Bool
  msg_namelen : ℕ
  msg_controllen : ℕ
deriving DecidableEq, Repr

/-- A call fails before the request is sent, stops at an assertion, or returns. -/
inductive ScatterEnd where
  | refused
  | aborted
  | returned
deriving DecidableEq, Repr

/-- The heap and the caller's buffers after a call, and the bytes that F-Stack has delivered. -/
structure ScatterResult where
  heap : ShareHeap
  bufs : List (List UInt8)
  data : List UInt8
  ended : ScatterEnd

/-! ## The stack -/

/-- The shared array, in whose buffers there is `mem`. -/
def shareEntries (mem : ℕ → ℕ → UInt8) (bases : List SharePtr) (lens : List ℕ) : List ShareEntry :=
  List.zipWith (fun iov_base iov_len => ⟨iov_base, iov_len, mem iov_base.block⟩) bases lens

/-- How many bytes `uiomove` can store; an entry without bytes in the low 32 bits of its length is passed over. -/
def shareRoom (lens : List ℕ) : ℕ := (lens.map (· % 2 ^ 32)).sum

/-- `uiomove` of `data` into the entries.
SOURCE: lib/ff_kern_subr.c:162-222 -/
def uiomoveShare : List ShareEntry → List UInt8 → List ShareEntry
  | [], _ => []
  | e :: entries, data =>
    let cnt := min (e.iov_len % 2 ^ 32) data.length
    { iov_base := { e.iov_base with off := e.iov_base.off + cnt }
      iov_len := e.iov_len - cnt
      mem := writeAt e.mem e.iov_base.off (data.take cnt) } ::
      uiomoveShare entries (data.drop cnt)

/-- `memcpy` of the saved array, which leaves the buffers as they are.
SOURCE: lib/ff_syscall_wrapper.c:863 -/
def restoreEntries (saved entries : List ShareEntry) : List ShareEntry :=
  List.zipWith (fun s e => { s with mem := e.mem }) saved entries

/-! ## The library -/

/-- `iovec_share2local` with `copy`, of `total` bytes.
SOURCE: adapter/syscall/ff_hook_syscall.c:1208-1227 -/
def shareToLocal : List ShareEntry → List (List UInt8) → ℕ → List (List UInt8)
  | e :: entries, buf :: bufs, total =>
    if total = 0 then buf :: bufs
    else
      let count := min total buf.length
      (readAt e.mem e.iov_base.off count ++ buf.drop count) :: shareToLocal entries bufs (total - count)
  | _, bufs, _ => bufs

/-- `ff_hook_readv`.
SOURCE: adapter/syscall/ff_hook_syscall.c:1606-1645; lib/ff_syscall_wrapper.c:1202-1229 -/
def ffHookReadv (h : ShareHeap) (mem : ℕ → ℕ → UInt8) (bufs : List (List UInt8)) (answer : RecvAnswer) :
    ScatterResult :=
  let lens := bufs.map List.length
  match h.iovecShareAlloc (some lens) bufs.length with
  | (h, none) => ⟨h, bufs, [], .refused⟩
  | (h, some (sh_iov, bases)) =>
    let data := answer.data.take (shareRoom lens)
    let entries := uiomoveShare (shareEntries mem bases lens) data
    let ret := if answer.ok = true then int32 data.length else -1
    let bufs := if 0 < ret then shareToLocal entries bufs ret.toNat else bufs
    let h := h.iovecShareFree sh_iov (entries.map fun e => some e.iov_base)
    ⟨h, bufs, if answer.ok = true then data else [], .returned⟩

/-- `ff_recvmsg`: the array afterwards, what is returned, and the bytes delivered.
SOURCE: lib/ff_syscall_wrapper.c:1530-1559 -/
def recvmsgEntries (entries : List ShareEntry) (msg_iovlen : ℕ) (answer : RecvAnswer) :
    List ShareEntry × ℤ × List UInt8 :=
  if UIO_MAXIOV < msg_iovlen then (entries, -1, [])
  else
    let data := answer.data.take (shareRoom (entries.map ShareEntry.iov_len))
    let moved := uiomoveShare entries data
    if answer.ok = true then (restoreEntries entries moved, int32 data.length, data) else (moved, -1, [])

/-- The assertions of `msghdr_share_memcpy`: the stack has changed no length of a field that there is.  With
`NDEBUG` they are nothing.
SOURCE: adapter/syscall/ff_hook_syscall.c:1436-1449 -/
def lengthsAsserted (ndebug : Bool) (msg_name msg_control : Option ℕ) (answer : RecvAnswer) : Bool :=
  ndebug || ((msg_name.isNone || msg_name = some answer.msg_namelen) &&
    (msg_control.isNone || msg_control = some answer.msg_controllen))

/-- `ff_hook_recvmsg`, of a message with a name and a control message of the given lengths, if there are any.
SOURCE: adapter/syscall/ff_hook_syscall.c:1463-1511 -/
def ffHookRecvmsg (ndebug : Bool) (h : ShareHeap) (mem : ℕ → ℕ → UInt8) (msg_name msg_control : Option ℕ)
    (bufs : List (List UInt8)) (answer : RecvAnswer) : ScatterResult :=
  let lens := bufs.map List.length
  if bufs.length = 0 then ⟨h, bufs, [], .refused⟩
  else
    match h.msghdrShareAlloc ⟨msg_name, some lens, bufs.length, msg_control⟩ with
    | (h, some ⟨hdr, name, some (sh_iov, bases), control⟩) =>
      match recvmsgEntries (shareEntries mem bases.reduceOption lens) bufs.length answer with
      | (entries, ret, data) =>
        if 0 ≤ ret ∧ lengthsAsserted ndebug msg_name msg_control answer = false then ⟨h, bufs, data, .aborted⟩
        else
          let bufs := if 0 < ret then shareToLocal entries bufs ret.toNat else bufs
          let h := h.msghdrShareFree
            ⟨hdr, name, some (sh_iov, entries.map fun e => some e.iov_base), control⟩
          ⟨h, bufs, data, .returned⟩
    | (h, _) => ⟨h, bufs, [], .refused⟩

end FStack.Model
