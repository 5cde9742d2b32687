import FStack.Analysis.MarshalledMessages
import FStack.Model.ToolBytes
import Mathlib.Data.List.Forall2

/-!
# What the tool, the message and the server have to agree on

An `Exchange` says where the regions of a request lie, what the server is to see in them, and where it leaves
what the caller is to receive.  It is right (`Exchange.Right`) if the regions lie in the buffer and are apart
from each other, the server sees the bytes of the caller, and the caller receives what the server has left, and
not more than its buffers hold.
-/

set_option autoImplicit false

namespace FStack.Analysis

open FStack.Model FStack.Prelude

variable {α : Type}

/-- What the server leaves for a buffer of the caller: a region of the length of that buffer, and how many bytes
of it have been left. -/
structure LeftBytes where
  region : Region
  count : ℕ

/-- The tool copies `placed` into the message and `copiedBack` to its caller; the regions, what the server is
to see and what it leaves are as they are meant.  The server does not change the argument structure `args`. -/
structure Exchange where
  buffer : Region
  args : Region
  regions : List Region
  placed : List (Chunk UInt8)
  seen : List (Chunk UInt8)
  copiedBack : (ℕ → UInt8) → List (List UInt8)
  left : (ℕ → UInt8) → List LeftBytes

namespace Exchange

/-- The memory that the server is given. -/
def sent (e : Exchange) (before : ℕ → UInt8) : ℕ → UInt8 := placeAll before e.placed

/-- The result, and the memory when the message is back. -/
structure Reply (e : Exchange) (before : ℕ → UInt8) where
  result : ℤ
  mem : ℕ → UInt8
  kept : readAt mem e.args.addr e.args.len = readAt (e.sent before) e.args.addr e.args.len

structure Right (e : Exchange) (before : ℕ → UInt8) (reply : Reply e before) : Prop where
  inside : ∀ r ∈ e.regions, r.Inside e.buffer
  apart : e.regions.Pairwise Region.Apart
  seen : ∀ w ∈ e.seen, readAt (e.sent before) w.addr w.elems.length = w.elems
  returned : reply.result = 0 →
    List.Forall₂ (fun bytes l => bytes = readAt reply.mem l.region.addr l.count ∧ l.count ≤ l.region.len)
      (e.copiedBack reply.mem) (e.left reply.mem)

variable {e : Exchange} {before : ℕ → UInt8} {reply : Reply e before}

/-- INTERNAL: Where the regions decide what is seen, and `C` on the reply what is returned. -/
theorem right_iff {C : Prop}
    (hseen : e.regions.Pairwise Region.Apart →
      ∀ w ∈ e.seen, readAt (e.sent before) w.addr w.elems.length = w.elems)
    (hreturned : (∀ r ∈ e.regions, r.Inside e.buffer) → e.regions.Pairwise Region.Apart →
      (List.Forall₂ (fun bytes l => bytes = readAt reply.mem l.region.addr l.count ∧ l.count ≤ l.region.len)
        (e.copiedBack reply.mem) (e.left reply.mem) ↔ C)) :
    Right e before reply ↔
      (∀ r ∈ e.regions, r.Inside e.buffer) ∧ e.regions.Pairwise Region.Apart ∧ (reply.result = 0 → C) := by
  constructor
  · intro h
    exact ⟨h.inside, h.apart, fun hzero => (hreturned h.inside h.apart).mp (h.returned hzero)⟩
  · rintro ⟨hinside, hapart, hC⟩
    exact ⟨hinside, hapart, hseen hapart, fun hzero => (hreturned hinside hapart).mpr (hC hzero)⟩

end Exchange

/-! ## The exchanges of the tools -/

/-- Where a write lies when the buffer is at `base`. -/
def MsgWrite.at (base : ℕ) (w : MsgWrite) : Region :=
  match w.ptr with
  | .embedded _ off | .extra _ off => ⟨base + off, w.len⟩

/-- The length of the structure at `buf_addr`. -/
def NgArgs.argsLen : NgArgs → ℕ
  | .socket _ | .bind .. | .connect .. => 24
  | .sendto .. | .recvfrom .. => 48
  | .close _ => 8

/-- `recvfrom` leaves the data, the address and its length. -/
def NgArgs.left (a : NgArgs) (base : ℕ) (mem : ℕ → UInt8) : List LeftBytes :=
  match a with
  | .recvfrom _ _ len _ _ fromlen =>
    let word := base + 48 + 4 * (len.toNat + fromlen.toNat)
    [⟨⟨base + 48, len.toNat⟩, len.toNat⟩, ⟨⟨base + 48 + 16 * len.toNat, fromlen.toNat⟩, readLe mem word 4⟩,
      ⟨⟨word, 4⟩, 4⟩]
  | _ => []

def ngExchange (a : NgArgs) (base : ℕ) : Exchange where
  buffer := ⟨base, MSG_BUF_LEN⟩
  args := ⟨base, NgArgs.argsLen a⟩
  regions := (a.call.writes (.embedded 0 0)).map (MsgWrite.at base)
  placed := a.fields base ++ a.copies base
  seen := a.fields base ++ a.copies base
  copiedBack := a.copiedBack base
  left := NgArgs.left a base

def ipfwExchange (get : Bool) (optval : ℕ → UInt8) (optlen : BitVec 32) (base : ℕ) : Exchange where
  buffer := ⟨base, MSG_BUF_LEN⟩
  args := ⟨base, 0⟩
  regions := [⟨base, optlen.toNat⟩, ⟨base + optlen.toNat, 4⟩]
  placed := ipfwCopies base optval optlen
  seen := ipfwCopies base optval optlen
  copiedBack := ipfwCopiedBack get base optlen
  left := fun mem =>
    let word := base + optlen.toNat
    if get then [⟨⟨base, optlen.toNat⟩, readLe mem word 4⟩, ⟨⟨word, 4⟩, 4⟩] else []

/-- Where the length that `oldlenp` points to lies, from the start of the buffer. -/
def SysctlBytes.oldlenOff (a : SysctlBytes) : ℕ :=
  a.namelen.toNat * 4 + if a.new.isSome then a.newlen.toNat else 0

/-- `sysctl` leaves the length, if there is a place for it, and the old value. -/
def SysctlBytes.left (a : SysctlBytes) (base : ℕ) (mem : ℕ → UInt8) : List LeftBytes :=
  let word := base + SysctlBytes.oldlenOff a
  match a.oldlenp with
  | none => []
  | some oldlen =>
    if a.old.isSome then [⟨⟨word, 8⟩, 8⟩, ⟨⟨word + 8, oldlen.toNat⟩, readLe mem word 8⟩] else [⟨⟨word, 8⟩, 8⟩]

def sysctlExchange (a : SysctlBytes) (buffer : Region) : Exchange where
  buffer := buffer
  args := ⟨buffer.addr, 0⟩
  regions := (a.args.writes (.embedded 0 0)).map (MsgWrite.at buffer.addr)
  placed := (a.fill buffer.addr).1
  seen := (a.fill buffer.addr).1
  copiedBack := a.copiedBack (a.fill buffer.addr).2
  left := SysctlBytes.left a buffer.addr

/-- The server sees `data` with a pointer to the copy of the memory. -/
def IoctlBytes.seen (a : IoctlBytes) (base : ℕ) : List (Chunk UInt8) :=
  match a.more with
  | .memory offset _ _ bytes clen =>
    [⟨base, readAt (writeAt a.data offset (leBytes 8 (base + a.size))) 0 a.size⟩,
      ⟨base + a.size, readAt bytes 0 clen.toNat⟩]
  | _ => [⟨base, readAt a.data 0 a.size⟩]

/-- A command with results leaves `data` and the memory; the pointer between them is the caller's own. -/
def IoctlBytes.left (a : IoctlBytes) (base : ℕ) : List LeftBytes :=
  if (ioctlCommand a.com).testBit 30 then
    match a.more with
    | .memory offset _ _ _ clen =>
      let behind := a.size - (offset + 8)
      [⟨⟨base, offset⟩, offset⟩, ⟨⟨base + (offset + 8), behind⟩, behind⟩,
        ⟨⟨base + a.size, clen.toNat⟩, clen.toNat⟩]
    | _ => [⟨⟨base, a.size⟩, a.size⟩]
  else []

def ioctlExchange (a : IoctlBytes) (base : ℕ) : Exchange where
  buffer := ⟨base, MSG_BUF_LEN⟩
  args := ⟨base, 0⟩
  regions :=
    ⟨base, a.size⟩ ::
      match a.more with
      | .memory _ _ _ _ clen => [⟨base + a.size, clen.toNat⟩]
      | _ => []
  placed := a.copies base
  seen := IoctlBytes.seen a base
  copiedBack := a.copiedBack base
  left := fun _ => IoctlBytes.left a base

def toolExchange (r : ToolTransfer) (extra : Option ℕ) (t : TakenMsg α) : Exchange :=
  match r with
  | .ngctl a => ngExchange a t.addr
  | .ipfw get optval optlen => ipfwExchange get optval optlen t.addr
  | .sysctl a => sysctlExchange a (a.buffer extra t)
  | .ioctl a => ioctlExchange a t.addr

/-! ## When they are right -/

/-- `recvfrom` of `len` bytes and an address of `fromlen` bytes fits, with the pointers that are computed. -/
def RecvFits (len fromlen : ℕ) : Prop :=
  (fromlen = 0 ∨ 48 + 16 * len + fromlen ≤ MSG_BUF_LEN) ∧ 48 + 4 * (len + fromlen) + 4 ≤ MSG_BUF_LEN ∧
    (fromlen = 0 ∨ fromlen < 3 * len ∨ 4 * len ≤ fromlen)

/-- The sizes that are added do not wrap, `recvfrom` is given lengths for which its pointers are right, and the
server answers with no length that is greater than the one it was given. -/
def ToolTransfer.Sound (r : ToolTransfer) (extra : Option ℕ) (t : TakenMsg α) (result : ℤ) (mem : ℕ → UInt8) :
    Prop :=
  match r with
  | .ngctl (.sendto _ _ len _ _ tolen) => 48 + len.toNat + tolen.toNat < 2 ^ 64
  | .ngctl (.recvfrom _ _ len _ _ fromlen) =>
    RecvFits len.toNat fromlen.toNat ∧
      (result = 0 → readLe mem (t.addr + 48 + 4 * (len.toNat + fromlen.toNat)) 4 ≤ fromlen.toNat)
  | .ngctl _ => True
  | .ipfw get _ optlen =>
    36 + optlen.toNat < 2 ^ 32 ∧
      (result = 0 → get = true → readLe mem (t.addr + optlen.toNat) 4 ≤ optlen.toNat)
  | .sysctl a =>
    (a.args.size < 2 ^ 64 ∨ a.new = none ∧ SysctlArgs.written a.args ≤ (a.buffer extra t).len) ∧
      (result = 0 → a.old.isSome = true →
        readLe mem ((a.buffer extra t).addr + SysctlBytes.oldlenOff a) 8 ≤ a.args.oldlen)
  | .ioctl a =>
    match a.more with
    | .memory _ _ _ _ clen => a.size + clen.toNat < 2 ^ 64
    | _ => True

end FStack.Analysis
