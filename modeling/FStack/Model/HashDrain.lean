import Mathlib.Algebra.Order.Ring.Int
import FStack.Prelude.Drain

/-!
# The hash tables at the end

`~CNetMgr`, `~TcpKeepMgr` and `~MsgBuffPool` take the first entry of a `HashList` (`adapter/micro_thread/hash_list.h`)
and delete it, until the table is empty.  What deleting an entry does to the table is up to the destructor of its class
and to the loop: `~CNetHandler` takes a registered session out by its key, the loop of `~MsgBuffPool` removes the entry
before it deletes it, and the other two destructors leave the table alone.

An entry of a `HashList` is in the bucket of the hash value that it had when it was inserted.
-/

set_option autoImplicit false

namespace FStack.Model

open FStack.Prelude

/-- `HashKey`: the hash value that was stored when the entry was inserted, `HashValue` and `HashCmp`.
SOURCE: hash_list.h:36-63 -/
class HashKey (α : Type) where
  hash_value : α → BitVec 32
  hashValue : α → BitVec 32
  hashCmp : α → α → ℤ

/-- `HashList`: each entry is in its bucket, and no entry is there twice.
SOURCE: hash_list.h:65-82 -/
structure HashList (α : Type) [HashKey α] where
  buckets : List (List α)
  placed : ∀ i bucket, buckets[i]? = some bucket → ∀ e ∈ bucket, (HashKey.hash_value e).toNat % buckets.length = i
  distinct : buckets.flatten.Nodup

namespace HashList

variable {α : Type} [HashKey α]

/-- The entries, bucket by bucket. -/
def entries (t : HashList α) : List α := t.buckets.flatten

/-- The first entry of the first bucket that is not empty.
SOURCE: hash_list.h:193-206 -/
def hashGetFirst (t : HashList α) : Option α := t.buckets.findSome? List.head?

/-- An entry has the hash value and the key of another.
SOURCE: hash_list.h:124-131, 160 -/
def hashMatch (key e : α) : Bool := HashKey.hash_value e = HashKey.hashValue key && HashKey.hashCmp e key = 0

/-- The bucket in which a key is looked for. -/
def hashIndex (t : HashList α) (key : α) : ℕ := (HashKey.hashValue key).toNat % t.buckets.length

/-- SOURCE: hash_list.h:113-134 -/
def hashFind (t : HashList α) (key : α) : Option α := (t.buckets[t.hashIndex key]?.getD []).find? (hashMatch key)

/-- SOURCE: hash_list.h:150-174 -/
def hashRemove (t : HashList α) (key : α) : HashList α where
  buckets := t.buckets.modify (t.hashIndex key) (List.eraseP (hashMatch key))
  placed := by
    intro i bucket hbucket e he
    rw [List.length_modify]
    rw [List.getElem?_modify] at hbucket
    obtain ⟨old, hold, rfl⟩ := Option.map_eq_some_iff.mp hbucket
    refine t.placed i old hold e ?_
    split at he
    · exact List.eraseP_subset he
    · exact he
  distinct := by
    refine t.distinct.sublist ?_
    generalize t.hashIndex key = i
    induction t.buckets generalizing i with
    | nil => simp
    | cons bucket rest ih =>
      cases i with
      | zero => exact List.eraseP_sublist.append (List.Sublist.refl _)
      | succ i => exact (List.Sublist.refl bucket).append (ih i)

end HashList

/-! ## The entries -/

/-- A `CDestLinks` with its address; its key is not changed while it is in the table.
SOURCE: mt_net.h:410-432 -/
structure CDestLinks where
  addr : ℕ
  addr_ipv4 : BitVec 32
  net_port : BitVec 16
  proto_type : BitVec 32
  conn_type : BitVec 32
deriving DecidableEq, Repr

/-- A comparison of the fields of two keys, the first that differs decides. -/
def cmpFields : List (ℕ × ℕ) → ℤ
  | [] => 0
  | (a, b) :: rest => if a ≠ b then if a > b then 1 else -1 else cmpFields rest

instance : HashKey CDestLinks where
  hash_value d := d.addr_ipv4 ^^^ ((d.net_port.setWidth 32 <<< 16) ||| (d.proto_type <<< 8) ||| d.conn_type)
  hashValue d := d.addr_ipv4 ^^^ ((d.net_port.setWidth 32 <<< 16) ||| (d.proto_type <<< 8) ||| d.conn_type)
  hashCmp d data := cmpFields [(d.addr_ipv4.toNat, data.addr_ipv4.toNat), (d.net_port.toNat, data.net_port.toNat),
    (d.proto_type.toNat, data.proto_type.toNat), (d.conn_type.toNat, data.conn_type.toNat)]

/-- A `CNetHandler` with its address, the hash value with which it was inserted, whether `STATE_IN_SESSION` is set,
and its key, which its setters change at any time.
SOURCE: mt_net.h:119-200 -/
structure CNetHandler where
  addr : ℕ
  hash_value : BitVec 32
  in_session : Bool
  session_id : BitVec 64
  s_addr : BitVec 32
  sin_port : BitVec 16
  proto_type : BitVec 32
  conn_type : BitVec 32
deriving DecidableEq, Repr

namespace CNetHandler

/-- SOURCE: mt_net.cpp:586-596 -/
def hashValue (h : CNetHandler) : BitVec 32 :=
  let ip := h.s_addr ^^^ ((h.sin_port.setWidth 32 <<< 16) ||| (h.proto_type <<< 8) ||| (h.conn_type <<< 8))
  (h.session_id >>> 32).setWidth 32 ^^^ h.session_id.setWidth 32 ^^^ ip

/-- SOURCE: mt_net.cpp:598-622 -/
def hashCmp (h data : CNetHandler) : ℤ :=
  cmpFields [(h.session_id.toNat, data.session_id.toNat), (h.s_addr.toNat, data.s_addr.toNat),
    (h.sin_port.toNat, data.sin_port.toNat), (h.proto_type.toNat, data.proto_type.toNat),
    (h.conn_type.toNat, data.conn_type.toNat)]

end CNetHandler

instance : HashKey CNetHandler where
  hash_value := CNetHandler.hash_value
  hashValue := CNetHandler.hashValue
  hashCmp := CNetHandler.hashCmp

/-- A `TcpKeepKey` with its address; its key does not change.
SOURCE: mt_connection.h:215-254 -/
structure TcpKeepKey where
  addr : ℕ
  addr_ipv4 : BitVec 32
  net_port : BitVec 16
deriving DecidableEq, Repr

instance : HashKey TcpKeepKey where
  hash_value k := k.addr_ipv4 ^^^ ((k.net_port.setWidth 32 <<< 16) ||| k.net_port.setWidth 32)
  hashValue k := k.addr_ipv4 ^^^ ((k.net_port.setWidth 32 <<< 16) ||| k.net_port.setWidth 32)
  hashCmp k data :=
    if k.addr_ipv4 ≠ data.addr_ipv4 then (k.addr_ipv4 - data.addr_ipv4).toInt
    else if k.net_port ≠ data.net_port then (k.net_port.toNat : ℤ) - data.net_port.toNat
    else 0

/-- A `MsgBufMap` with its address; its size does not change.
SOURCE: mt_mbuf_pool.h:118-186 -/
structure MsgBufMap where
  addr : ℕ
  max_buf_size : BitVec 32
deriving DecidableEq, Repr

instance : HashKey MsgBufMap where
  hash_value m := m.max_buf_size
  hashValue m := m.max_buf_size
  hashCmp m data := (m.max_buf_size - data.max_buf_size).toInt

/-! ## The destructors -/

/-- `delete` of a `CDestLinks`: `Reset` destroys its links and stops its timer.
SOURCE: mt_net.cpp:1467-1498 -/
def deleteDestLinks (t : HashList CDestLinks) (_ : CDestLinks) : HashList CDestLinks := t

/-- `CNetMgr::RemoveNetItem`.
SOURCE: mt_net.cpp:1599-1634 -/
def removeNetItem (t : HashList CNetHandler) (item : CNetHandler) : HashList CNetHandler :=
  match t.hashFind item with
  | none => t
  | some handler => t.hashRemove handler

/-- `delete` of a `CNetHandler`: `Reset` takes a session out that is registered.
SOURCE: mt_net.cpp:182-216, 640-647 -/
def deleteNetHandler (t : HashList CNetHandler) (item : CNetHandler) : HashList CNetHandler :=
  if item.in_session then removeNetItem t item else t

/-- `delete` of a `TcpKeepKey`: only its own list is emptied.
SOURCE: mt_connection.h:233-235 -/
def deleteKeepKey (t : HashList TcpKeepKey) (_ : TcpKeepKey) : HashList TcpKeepKey := t

/-- The pass of `~MsgBuffPool`: the entry is removed and deleted.
SOURCE: mt_mbuf_pool.cpp:65-72 -/
def removeMsgMap (t : HashList MsgBufMap) (item : MsgBufMap) : HashList MsgBufMap := t.hashRemove item

/-- The two loops of `~CNetMgr`, and those of `~TcpKeepMgr` and of `~MsgBuffPool`, each over its table.
SOURCE: mt_net.cpp:1712-1742, mt_connection.cpp:477-492, mt_mbuf_pool.cpp:57-76 -/
structure HashTables where
  ip_hash : HashList CDestLinks
  session_hash : HashList CNetHandler
  keep_hash : HashList TcpKeepKey
  hash_map : HashList MsgBufMap

end FStack.Model
