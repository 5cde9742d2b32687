import FStack.Model.ToolCalls
import FStack.Prelude.Regions

/-!
# The bytes that the tools exchange with the server

`ngctl`, `ipfw_ctl`, `sysctl` and `ioctl_va` (`tools/libnetgraph`, `tools/ipfw`, `tools/compat`) copy the bytes
of their caller behind `buf_addr`, and when the server has answered with the result zero they copy what it has
left there back to the caller.  The sizes that they compare with `buf_len` are in the module `ToolCalls`.

A buffer of the caller is a function from offsets to bytes.  Numbers and pointers are stored with the least
significant byte first.
-/

set_option autoImplicit false

namespace FStack.Model

open FStack.Prelude

/-! ## `ngctl` -/

/-- The calls of `libnetgraph`, with what their arguments lead to.
SOURCE: tools/libnetgraph/compat.c:148-235 -/
inductive NgArgs where
  | socket (sa : ℕ → UInt8)
  | bind (s : BitVec 32) (name : ℕ → UInt8) (namelen : BitVec 32)
  | connect (s : BitVec 32) (name : ℕ → UInt8) (namelen : BitVec 32)
  | sendto (s : BitVec 32) (buf : ℕ → UInt8) (len : BitVec 64) (flags : BitVec 32)
      (dest_addr : ℕ → UInt8) (tolen : BitVec 32)
  | recvfrom (s : BitVec 32) (buf : ℕ → UInt8) (len : BitVec 64) (flags : BitVec 32)
      (src_addr : ℕ → UInt8) (fromlen : BitVec 32)
  | close (ca : ℕ → UInt8)

/-- The call with its lengths only. -/
def NgArgs.call : NgArgs → NgCall
  | .socket _ => .socket
  | .bind _ _ namelen => .bind namelen.toNat
  | .connect _ _ namelen => .connect namelen.toNat
  | .sendto _ _ len _ _ tolen => .sendto len.toNat tolen.toNat
  | .recvfrom _ _ len _ _ fromlen => .recvfrom len.toNat fromlen.toNat
  | .close _ => .close

/-- The fields of the structure at `buf_addr` that are set, where they are not copied as a whole.
SOURCE: tools/libnetgraph/compat.c:64-103, tools/compat/include/sys/sysproto.h -/
def NgArgs.fields (buf_addr : ℕ) : NgArgs → List (Chunk UInt8)
  | .socket _ => []
  | .bind s _ namelen | .connect s _ namelen =>
    [⟨buf_addr, leBytes 4 s.toNat⟩, ⟨buf_addr + 8, leBytes 8 (buf_addr + 24)⟩,
      ⟨buf_addr + 16, leBytes 4 namelen.toNat⟩]
  | .sendto s _ len flags _ tolen =>
    let dst_buf := buf_addr + 48
    [⟨buf_addr, leBytes 4 s.toNat⟩, ⟨buf_addr + 8, leBytes 8 dst_buf⟩, ⟨buf_addr + 16, leBytes 8 len.toNat⟩,
      ⟨buf_addr + 24, leBytes 4 flags.toNat⟩, ⟨buf_addr + 32, leBytes 8 (dst_buf + len.toNat)⟩,
      ⟨buf_addr + 40, leBytes 4 tolen.toNat⟩]
  | .recvfrom s _ len flags _ fromlen =>
    let dst_buf := buf_addr + 48
    [⟨buf_addr, leBytes 4 s.toNat⟩, ⟨buf_addr + 8, leBytes 8 dst_buf⟩, ⟨buf_addr + 16, leBytes 8 len.toNat⟩,
      ⟨buf_addr + 24, leBytes 4 flags.toNat⟩,
      -- a pointer to `struct sockaddr` is moved by `len`, and one to `socklen_t` by the sum
      ⟨buf_addr + 32, leBytes 8 (dst_buf + 16 * len.toNat)⟩,
      ⟨buf_addr + 40, leBytes 8 (dst_buf + 4 * (len.toNat + fromlen.toNat))⟩]
  | .close _ => []

/-- What is copied with `memcpy`.
SOURCE: tools/libnetgraph/compat.c:59-108 -/
def NgArgs.copies (buf_addr : ℕ) : NgArgs → List (Chunk UInt8)
  | .socket sa => [⟨buf_addr, readAt sa 0 24⟩]
  | .bind _ name namelen | .connect _ name namelen => [⟨buf_addr + 24, readAt name 0 namelen.toNat⟩]
  | .sendto _ buf len _ dest_addr tolen =>
    let dst_buf := buf_addr + 48
    [⟨dst_buf, readAt buf 0 len.toNat⟩, ⟨dst_buf + len.toNat, readAt dest_addr 0 tolen.toNat⟩]
  | .recvfrom _ buf len _ src_addr fromlen =>
    let dst_buf := buf_addr + 48
    [⟨dst_buf, readAt buf 0 len.toNat⟩, ⟨dst_buf + 16 * len.toNat, readAt src_addr 0 fromlen.toNat⟩,
      ⟨dst_buf + 4 * (len.toNat + fromlen.toNat), leBytes 4 fromlen.toNat⟩]
  | .close ca => [⟨buf_addr, readAt ca 0 8⟩]

/-- What is copied to the caller, in this order to `buf`, `from` and `fromlenaddr`, when the memory is `mem`.
SOURCE: tools/libnetgraph/compat.c:133-141 -/
def NgArgs.copiedBack (a : NgArgs) (buf_addr : ℕ) (mem : ℕ → UInt8) : List (List UInt8) :=
  match a with
  | .recvfrom .. =>
    let src_buf := readLe mem (buf_addr + 8) 8
    let src_len := readLe mem (buf_addr + 16) 8
    let src_from := readLe mem (buf_addr + 32) 8
    let src_fromlenaddr := readLe mem (buf_addr + 40) 8
    [readAt mem src_buf src_len, readAt mem src_from (readLe mem src_fromlenaddr 4),
      readAt mem src_fromlenaddr 4]
  | _ => []

/-! ## `ipfw_ctl` -/

/-- What `ipfw_ctl` copies into the message.
SOURCE: tools/ipfw/compat.c:70-74 -/
def ipfwCopies (buf_addr : ℕ) (optval : ℕ → UInt8) (optlen : BitVec 32) : List (Chunk UInt8) :=
  [⟨buf_addr, readAt optval 0 optlen.toNat⟩, ⟨buf_addr + optlen.toNat, leBytes 4 optlen.toNat⟩]

/-- What is copied to `optval` and `optlen`.
SOURCE: tools/ipfw/compat.c:98-103 -/
def ipfwCopiedBack (get : Bool) (buf_addr : ℕ) (optlen : BitVec 32) (mem : ℕ → UInt8) : List (List UInt8) :=
  let msg_optlen := buf_addr + optlen.toNat
  if get then [readAt mem buf_addr (readLe mem msg_optlen 4), readAt mem msg_optlen 4] else []

/-! ## `sysctl` -/

structure SysctlBytes where
  name : ℕ → UInt8
  namelen : BitVec 32
  old : Option (ℕ → UInt8)
  oldlenp : Option (BitVec 64)
  new : Option (ℕ → UInt8)
  newlen : BitVec 64

/-- The call with its lengths only. -/
def SysctlBytes.args (a : SysctlBytes) : SysctlArgs :=
  ⟨a.namelen.toNat, a.old.isSome, a.oldlenp.map BitVec.toNat, a.new.isSome, a.newlen.toNat⟩

/-- The pointers of `msg->sysctl` that the tool reads again. -/
structure SysctlMsg where
  oldlenp : Option ℕ
  old : Option ℕ
deriving DecidableEq, Repr

/-- What `sysctl` copies into the message.
SOURCE: tools/compat/sysctl.c:70-106 -/
def SysctlBytes.fill (a : SysctlBytes) (buf_addr : ℕ) : List (Chunk UInt8) × SysctlMsg :=
  let name : Chunk UInt8 := ⟨buf_addr, readAt a.name 0 (a.namelen.toNat * 4)⟩
  let buf_addr := buf_addr + a.namelen.toNat * 4
  let (new, buf_addr) : List (Chunk UInt8) × ℕ :=
    match a.new with
    | some new =>
      if a.newlen ≠ 0 then ([⟨buf_addr, readAt new 0 a.newlen.toNat⟩], buf_addr + a.newlen.toNat)
      else ([], buf_addr)
    | none => ([], buf_addr)
  match a.oldlenp with
  | some oldlen =>
    let oldlenp : Chunk UInt8 := ⟨buf_addr, leBytes 8 oldlen.toNat⟩
    match a.old with
    | some old =>
      (name :: new ++ [oldlenp, ⟨buf_addr + 8, readAt old 0 oldlen.toNat⟩],
        ⟨some buf_addr, some (buf_addr + 8)⟩)
    | none => (name :: new ++ [oldlenp], ⟨some buf_addr, none⟩)
  | none => (name :: new, ⟨none, none⟩)

/-- What is copied to `oldlenp` and to `old`.
SOURCE: tools/compat/sysctl.c:125-133 -/
def SysctlBytes.copiedBack (a : SysctlBytes) (msg : SysctlMsg) (mem : ℕ → UInt8) : List (List UInt8) :=
  match a.oldlenp with
  | none => []
  | some oldlen =>
    let (written, oldlen) : List (List UInt8) × ℕ :=
      match msg.oldlenp with
      | some p => ([readAt mem p 8], readLe mem p 8)
      | none => ([], oldlen.toNat)
    match a.old, msg.old with
    | some _, some p => written ++ [readAt mem p oldlen]
    | _, _ => written

/-! ## `ioctl_va` -/

/-- The arguments after `data`: none, a family, or memory at the address `cpy_mem`, whose pointer is in
`data`. -/
inductive IoctlMoreBytes (size : ℕ) where
  | none
  | family (af : IoctlFamily)
  | memory (offset : ℕ) (fits : offset + 8 ≤ size) (cpy_mem : BitVec 64) (bytes : ℕ → UInt8) (clen : BitVec 64)

structure IoctlBytes where
  com : ℕ
  data : ℕ → UInt8
  more : IoctlMoreBytes (iocparmLen (ioctlCommand com))

namespace IoctlBytes

def size (a : IoctlBytes) : ℕ := iocparmLen (ioctlCommand a.com)

/-- The call with its lengths only. -/
def call (a : IoctlBytes) : ToolCall :=
  .ioctl a.com <|
    match a.more with
    | .none => .none
    | .family af => .family af
    | .memory offset _ _ _ clen => .memory offset clen.toNat

/-- What `ioctl_va` copies into the message; the pointer in `data` is made one to the copy of the memory.
SOURCE: tools/compat/ioctl.c:118-133 -/
def copies (a : IoctlBytes) (buf_addr : ℕ) : List (Chunk UInt8) :=
  let data : Chunk UInt8 := ⟨buf_addr, readAt a.data 0 a.size⟩
  match a.more with
  | .memory offset _ _ bytes clen =>
    [data, ⟨buf_addr + offset, leBytes 8 (buf_addr + a.size)⟩,
      ⟨buf_addr + a.size, readAt bytes 0 clen.toNat⟩]
  | _ => [data]

/-- The caller's `data` after the call, when it is one that has results.
SOURCE: tools/compat/ioctl.c:156-163 -/
def dataAfter (a : IoctlBytes) (buf_addr : ℕ) (mem : ℕ → UInt8) : ℕ → UInt8 :=
  let data := writeAt a.data 0 (readAt mem buf_addr a.size)
  match a.more with
  | .memory offset _ cpy_mem _ _ => writeAt data offset (leBytes 8 cpy_mem.toNat)
  | _ => data

/-- What the caller has in `data`, before and behind the pointer, and in its memory.
SOURCE: tools/compat/ioctl.c:153-164 -/
def copiedBack (a : IoctlBytes) (buf_addr : ℕ) (mem : ℕ → UInt8) : List (List UInt8) :=
  let data := a.dataAfter buf_addr mem
  if (ioctlCommand a.com).testBit 30 then
    match a.more with
    | .memory offset _ _ _ clen =>
      [readAt data 0 offset, readAt data (offset + 8) (a.size - (offset + 8)),
        readAt mem (buf_addr + a.size) clen.toNat]
    | _ => [readAt data 0 a.size]
  else []

end IoctlBytes

/-! ## The calls -/

inductive ToolTransfer where
  | ngctl (a : NgArgs)
  | ipfw (get : Bool) (optval : ℕ → UInt8) (optlen : BitVec 32)
  | sysctl (a : SysctlBytes)
  | ioctl (a : IoctlBytes)

/-- The call with its lengths only.  `ipfw_ctl` is given an `optval` and an `optlen`. -/
def ToolTransfer.call : ToolTransfer → ToolCall
  | .ngctl a => .ngctl a.call
  | .ipfw true _ optlen => .ipfwGet true (some optlen.toNat)
  | .ipfw false _ optlen => .ipfwSet optlen.toNat
  | .sysctl a => .sysctl a.args
  | .ioctl a => a.call

/-- A message that a tool has taken from the pool, and where its buffer lies. -/
structure TakenMsg (α : Type) where
  msg : FfMsg α
  addr : ℕ
  len_eq : msg.buf_len = MSG_BUF_LEN
  fits : addr + MSG_BUF_LEN ≤ 2 ^ 64

variable {α : Type}

/-- The request is sent, when `rte_malloc` would answer with `extra`. -/
def ToolTransfer.Sent (r : ToolTransfer) (inet6 : Bool) (extra : Option ℕ) (t : TakenMsg α) : Prop :=
  r.call.invalid = false ∧ (r.call.marshal inet6 0 extra.isSome t.msg).send = true

/-- The buffer that `sysctl` uses. -/
def SysctlBytes.buffer (a : SysctlBytes) (extra : Option ℕ) (t : TakenMsg α) : Region :=
  let total_len := a.args.size % 2 ^ 64
  if t.msg.buf_len < total_len then ⟨extra.getD 0, total_len⟩ else ⟨t.addr, MSG_BUF_LEN⟩

end FStack.Model
