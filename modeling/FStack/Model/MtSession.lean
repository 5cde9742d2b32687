import Mathlib.Data.Nat.Notation
import Mathlib.Data.Option.Basic

/-!
# UDP sessions of the actions

An `IMtAction` over a UDP session (`adapter/micro_thread/mt_action.cpp`) takes a connection from a pool, gets a
session id and is put into the hash of `SessionMgr` (`mt_session.cpp`); a datagram is handed to the connection of
the action that is found for its session id (`mt_notify.cpp`).

Actions and connections are numbers.  The hash is the list of its items, a new one first, each with the hash value
that it got when it was inserted; items that a search compares with are in one bucket, and in this order there.
Beside the fields of an action, the model records whether `InitConnEnv` went through on it, and whether it was
`Reset` since.
-/

set_option autoImplicit false

namespace FStack.Model

/-- SOURCE: mt_action.h:150-190, mt_session.h:80-91 -/
structure MtAction where
  alive : Bool := false
  conn : Option ℕ := none
  session_id : BitVec 32 := 0
  session_flg : Bool := false
  connection : Option ℕ := none
  inited : Bool := false
  opened : Bool := false
deriving DecidableEq, Repr

/-- A `UdpSessionConn`: whether it has a notify object, and its message buffer.
SOURCE: mt_connection.h:88-92 -/
structure SessionConn where
  ntfy_obj : Bool := false
  msg_buff : Option (List UInt8) := none
deriving DecidableEq, Repr

/-- The actions, of which `made` were constructed; the connections with their pool; the last session id; and the
items of the hash, with their hash values. -/
structure SessionMgr where
  actions : ℕ → MtAction := fun _ => {}
  made : ℕ := 0
  conns : ℕ → SessionConn := fun _ => {}
  total : ℕ := 0
  pool : List ℕ := []
  dead : List ℕ := []
  curr_session : BitVec 32 := 0
  hash_map : List (ℕ × BitVec 32) := []

/-- What happens: an action is constructed, initialised (there being a buffer and a notify object or not), reset, or
destroyed; or a datagram comes in. -/
inductive ActionStep where
  | construct
  | init (action : ℕ) (buff ntfy : Bool)
  | reset (action : ℕ)
  | destroy (action : ℕ)
  | datagram (session_id : BitVec 32) (message : List UInt8)
deriving DecidableEq, Repr

namespace SessionMgr

/-- `_max_free` of the queue of connections.
SOURCE: mt_notify.h:258 -/
def MAX_FREE : ℕ := 500

def setAction (s : SessionMgr) (a : ℕ) (action : MtAction) : SessionMgr :=
  { s with actions := Function.update s.actions a action }

def setConn (s : SessionMgr) (c : ℕ) (conn : SessionConn) : SessionMgr :=
  { s with conns := Function.update s.conns c conn }

/-- `GetSessionId`.
SOURCE: mt_session.h:101-107 -/
def nextSession (s : SessionMgr) : BitVec 32 :=
  if s.curr_session + 1 = 0 then s.curr_session + 1 + 1 else s.curr_session + 1

/-- An item that a search for a session id stops at: its hash value, and the session id that it has now.
SOURCE: hash_list.h:120-128, mt_session.h:76-82 -/
def matchesId (s : SessionMgr) (id : BitVec 32) (item : ℕ × BitVec 32) : Bool :=
  item.2 = id ∧ (s.actions item.1).session_id = id

/-- SOURCE: mt_session.cpp:91-101 -/
def findSession (s : SessionMgr) (id : BitVec 32) : Option ℕ :=
  (s.hash_map.find? (s.matchesId id)).map Prod.fst

/-- `HashInsert`: an action that is in the hash is not inserted.
SOURCE: hash_list.h:90-107 -/
def hashInsert (s : SessionMgr) (a : ℕ) : SessionMgr :=
  if s.hash_map.any (·.1 = a) then s
  else { s with hash_map := (a, (s.actions a).session_id) :: s.hash_map }

/-- SOURCE: mt_session.cpp:74-89 -/
def insertSession (s : SessionMgr) (a : ℕ) : SessionMgr :=
  if (s.actions a).session_flg then s
  else (s.setAction a { s.actions a with session_flg := true }).hashInsert a

/-- SOURCE: mt_session.cpp:103-113, hash_list.h:148-173 -/
def removeSession (s : SessionMgr) (id : BitVec 32) : SessionMgr :=
  { s with hash_map := s.hash_map.eraseP (s.matchesId id) }

/-- SOURCE: mt_notify.h:269-280 -/
def allocPtr (s : SessionMgr) : SessionMgr × ℕ :=
  match s.pool with
  | c :: pool => ({ s with pool := pool }, c)
  | [] => ({ s with total := s.total + 1 }, s.total)

/-- `FreeConnection` of a UDP session.
SOURCE: mt_connection.cpp:60-75, 759-762, mt_notify.h:282-289 -/
def freeConnection (s : SessionMgr) (c : ℕ) : SessionMgr :=
  let s := s.setConn c {}
  if MAX_FREE ≤ s.pool.length then { s with dead := c :: s.dead } else { s with pool := s.pool ++ [c] }

/-- `InitConnEnv`, and whether it went through.
SOURCE: mt_action.cpp:65-134 -/
def initConnEnv (s : SessionMgr) (a : ℕ) (buff ntfy : Bool) : SessionMgr × Bool :=
  if (s.actions a).conn.isSome then (s, false)
  else
    let (s, c) := s.allocPtr
    let s := s.setAction a { s.actions a with conn := some c }
    if !buff then (s, false)
    else if !ntfy then (s.setConn c { msg_buff := some [] }, false)
    else
      let s := s.setConn c { ntfy_obj := true, msg_buff := some [] }
      let id := s.nextSession
      let s := { s with curr_session := id }
      let s := s.setAction a
        { s.actions a with connection := some c, session_id := id, inited := true, opened := true }
      (s.insertSession a, true)

/-- SOURCE: mt_action.cpp:43-54 -/
def reset (s : SessionMgr) (a : ℕ) : SessionMgr :=
  match (s.actions a).conn with
  | none => s
  | some c => (s.freeConnection c).setAction a { s.actions a with conn := none, opened := false }

/-- `~IMtAction` and `~ISession`.
SOURCE: mt_action.cpp:202-206, mt_session.cpp:31-38 -/
def destroy (s : SessionMgr) (a : ℕ) : SessionMgr :=
  let s := s.reset a
  let s := if (s.actions a).session_flg then s.removeSession (s.actions a).session_id else s
  s.setAction a { s.actions a with alive := false, session_flg := false }

/-- A datagram, and the connection in which it is stored.  A deleted connection is read after its end, and may be
stored in.
SOURCE: mt_notify.cpp:176-222 -/
def inputNotify (s : SessionMgr) (id : BitVec 32) (message : List UInt8) : SessionMgr × Option ℕ :=
  match s.findSession id with
  | none => (s, none)
  | some a =>
    match (s.actions a).connection with
    | none => (s, none)
    | some c =>
      if (s.conns c).ntfy_obj ∨ c ∈ s.dead then
        (s.setConn c { s.conns c with msg_buff := some message }, some c)
      else (s, none)

/-- A step; only an action that is alive is used. -/
def step (s : SessionMgr) : ActionStep → SessionMgr × Option ℕ
  | .construct => ({ s.setAction s.made { alive := true } with made := s.made + 1 }, none)
  | .init a buff ntfy => (if (s.actions a).alive then (s.initConnEnv a buff ntfy).1 else s, none)
  | .reset a => (if (s.actions a).alive then s.reset a else s, none)
  | .destroy a => (if (s.actions a).alive then s.destroy a else s, none)
  | .datagram id message => s.inputNotify id message

end SessionMgr

end FStack.Model
