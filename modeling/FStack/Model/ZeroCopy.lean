import Mathlib.Algebra.Order.Ring.Int
import Mathlib.Data.List.Basic

/-!
# The zero-copy buffers

`struct ff_zc_mbuf` (`lib/ff_api.h`) gives an application direct access to an mbuf chain,
through the functions `ff_zc_mbuf_get`, `ff_zc_mbuf_write`, `ff_zc_mbuf_read` and
`ff_zc_mbuf_segment` of `lib/ff_veth.c`.  The structure has the same fields for both
directions, and they mean different things: when sending, `off` counts the bytes written to
the whole chain; when receiving, it is the offset in the mbuf at the cursor.

The content of an mbuf is a list of bytes of an arbitrary type: none of the functions looks at
a byte.
-/

set_option autoImplicit false

namespace FStack.Model

variable {α : Type}

/-! ## Receiving -/

/-- `struct ff_zc_mbuf` after `ff_zc_recv`: the mbufs from `bsd_mbuf_off` on, which is `NULL`
behind the last one, and the offset in the first of them. -/
structure ZcRecv (α : Type) where
  bsd_mbuf_off : List (List α)
  off : ℕ
deriving DecidableEq, Repr

/-- The cursor as `ff_zc_recv` leaves it. -/
def zcRecvInit (chain : List (List α)) : ZcRecv α := ⟨chain, 0⟩

/-- The `while` loop of `ff_zc_mbuf_read` for a request of `len` bytes, with `mb`, `moff` and the
bytes copied so far.  `moff` is at most `m_len`, so the difference does not go below zero.
SOURCE: lib/ff_veth.c:385-394 -/
def ffZcMbufReadLoop (len : ℕ) (mb : List (List α)) (moff : ℕ) (out : List α) :
    ZcRecv α × List α :=
  match mb with
  | [] => (⟨[], moff⟩, out)
  | m :: next =>
    if out.length < len then
      let length := min (m.length - moff) (len - out.length)
      let out' := out ++ (m.drop moff).take length
      if m.length ≤ moff + length then ffZcMbufReadLoop len next 0 out'
      else ffZcMbufReadLoop len (m :: next) (moff + length) out'
    else (⟨m :: next, moff⟩, out)
termination_by (mb.length, len - out.length)
decreasing_by
  · exact Prod.Lex.left _ _ (by simp)
  · refine Prod.Lex.right _ ?_
    simp only [List.length_append, List.length_take, List.length_drop]
    omega

/-- What one call gives to the application: the returned value and the bytes. -/
structure ZcOut (α : Type) where
  ret : ℤ
  bytes : List α
deriving DecidableEq, Repr

/-- `ff_zc_mbuf_read`.
SOURCE: lib/ff_veth.c:370-399 -/
def ffZcMbufRead (zm : ZcRecv α) (len : ℤ) : ZcRecv α × ZcOut α :=
  if len ≤ 0 then (zm, ⟨-1, []⟩)
  else
    let r := ffZcMbufReadLoop len.toNat zm.bsd_mbuf_off zm.off []
    (r.1, ⟨r.2.length, r.2⟩)

/-- `ff_zc_mbuf_segment`: the whole mbuf at the cursor.
SOURCE: lib/ff_veth.c:401-427 -/
def ffZcMbufSegment (zm : ZcRecv α) : ZcRecv α × ZcOut α :=
  match zm.bsd_mbuf_off with
  | [] => (zm, ⟨0, []⟩)
  | m :: next => (⟨next, 0⟩, ⟨m.length, m⟩)

/-- A call on the receive side. -/
inductive ZcRecvCall where
  | read (len : ℤ)
  | segment
deriving DecidableEq, Repr

def zcRecvStep (zm : ZcRecv α) : ZcRecvCall → ZcRecv α × ZcOut α
  | .read len => ffZcMbufRead zm len
  | .segment => ffZcMbufSegment zm

/-- A receive cursor with what was handed out so far and what the last call returned. -/
structure ZcRecvRun (α : Type) where
  zm : ZcRecv α
  delivered : List α
  ret : ℤ
deriving DecidableEq, Repr

def ZcRecvRun.call (r : ZcRecvRun α) (c : ZcRecvCall) : ZcRecvRun α :=
  let p := zcRecvStep r.zm c
  ⟨p.1, r.delivered ++ p.2.bytes, p.2.ret⟩

/-- The calls made on a received chain, from `ff_zc_recv` on, which returned the byte count. -/
def zcRecvRun (chain : List (List α)) (calls : List ZcRecvCall) : ZcRecvRun α :=
  calls.foldl ZcRecvRun.call ⟨zcRecvInit chain, [], chain.flatten.length⟩

/-! ## Sending -/

/-- An mbuf that is written to: its content and `M_TRAILINGSPACE`. -/
structure ZcMbuf (α : Type) where
  data : List α
  trailing : ℕ
deriving DecidableEq, Repr

/-- `struct ff_zc_mbuf` after `ff_zc_mbuf_get`.  `bsd_mbuf_off` is the index in the chain of the
mbuf it points to, the length of the chain for `NULL`; `pkthdr_len` is the field of the head. -/
structure ZcSend (α : Type) where
  bsd_mbuf : List (ZcMbuf α)
  bsd_mbuf_off : ℕ
  pkthdr_len : ℤ
  off : ℤ
  len : ℤ
deriving DecidableEq, Repr

/-- A sum in `int`. -/
def int32 (x : ℤ) : ℤ := x.bmod (2 ^ 32)

/-- `ff_zc_mbuf_get`, with the chain that `m_getm2` returns.
SOURCE: lib/ff_veth.c:306-326 -/
def ffZcMbufGet (len : Int32) (mb : Option (List (ZcMbuf α))) : Option (ZcSend α) :=
  if len.toInt < 0 then none
  else
    match mb with
    | none => none
    | some chain => some ⟨chain, 0, 0, 0, len.toInt⟩

/-- `n` bytes from the application's buffer, from offset `a` on. -/
def bufBytes (data : ℕ → α) (a n : ℕ) : List α := (List.range n).map fun i => data (a + i)

/-- What the `for` loop of `ff_zc_mbuf_write` leaves behind. -/
structure ZcWriteLoop (α : Type) where
  mbufs : List (ZcMbuf α)
  mb : ℕ
  progress : ℕ

/-- The `for` loop of `ff_zc_mbuf_write` over the mbufs from the cursor on; `mb` is how many of them
it went past.
SOURCE: lib/ff_veth.c:346-356 -/
def ffZcMbufWriteLoop (data : ℕ → α) (len : ℕ) : List (ZcMbuf α) → ℕ → ZcWriteLoop α
  | [], progress => ⟨[], 0, progress⟩
  | m :: next, progress =>
    let length := min m.trailing (len - progress)
    let m' := if 0 < length then
        ⟨m.data ++ bufBytes data progress length, m.trailing - length⟩
      else m
    if len = progress + length then ⟨m' :: next, 0, progress + length⟩
    else
      let r := ffZcMbufWriteLoop data len next (progress + length)
      ⟨m' :: r.mbufs, r.mb + 1, r.progress⟩

/-- `ff_zc_mbuf_write`; `data` is `none` for a null pointer.
SOURCE: lib/ff_veth.c:328-368 -/
def ffZcMbufWrite (zm : ZcSend α) (data : Option (ℕ → α)) (len : Int32) : ZcSend α × ℤ :=
  match data with
  | none => (zm, -1)
  | some data =>
    if len.toInt < 0 then (zm, -1)
    else if len.toInt = 0 then (zm, 0)
    else if int32 (zm.off + len.toInt) > zm.len then (zm, -1)
    else
      let r := ffZcMbufWriteLoop data len.toInt.toNat (zm.bsd_mbuf.drop zm.bsd_mbuf_off) 0
      ({ zm with
          bsd_mbuf := zm.bsd_mbuf.take zm.bsd_mbuf_off ++ r.mbufs
          bsd_mbuf_off := zm.bsd_mbuf_off + r.mb
          pkthdr_len := int32 (zm.pkthdr_len + r.progress)
          off := int32 (zm.off + r.progress) }, r.progress)

/-- A call of `ff_zc_mbuf_write`. -/
structure ZcWrite (α : Type) where
  data : Option (ℕ → α)
  len : Int32

/-- The bytes that a write is asked to store. -/
def ZcWrite.bytes (w : ZcWrite α) : List α :=
  match w.data with
  | none => []
  | some data => bufBytes data 0 w.len.toInt.toNat

/-- A chain that is written to, with the bytes of the writes that were not refused. -/
structure ZcSendRun (α : Type) where
  zm : ZcSend α
  accepted : List α

def ZcSendRun.write (r : ZcSendRun α) (w : ZcWrite α) : ZcSendRun α :=
  let p := ffZcMbufWrite r.zm w.data w.len
  ⟨p.1, if p.2 = -1 then r.accepted else r.accepted ++ w.bytes⟩

/-- The writes made to a chain, from `ff_zc_mbuf_get` on. -/
def zcSendRun (zm : ZcSend α) (ws : List (ZcWrite α)) : ZcSendRun α :=
  ws.foldl ZcSendRun.write ⟨zm, []⟩

end FStack.Model
