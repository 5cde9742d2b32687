import Mathlib.Data.BitVec

/-!
# The table of bound addresses

The F-Stack process of the adapter (`adapter/syscall/ff_socket_ops.c`) remembers for up to eight
descriptors the first 16 bytes of the address that they were bound to.  When an address that looks like a
recorded one is to be bound to another descriptor, this becomes a duplicate of the recorded one.

Of the stack only what the table is about is kept: which socket a descriptor refers to, and the address
that a socket is bound to.  Whether a bind is refused, and the port that is chosen for a port 0, are inputs
of the request; so is the number that a new descriptor gets.
-/

set_option autoImplicit false

namespace FStack.Model

inductive SaFamily where
  | inet
  | inet6
deriving DecidableEq, Repr

/-- `struct sockaddr_in` and `struct sockaddr_in6`. -/
inductive SockAddr where
  | inet (port : BitVec 16) (addr : BitVec 32)
  | inet6 (port : BitVec 16) (flowinfo : BitVec 32) (addr : BitVec 128) (scope_id : BitVec 32)
deriving DecidableEq, Repr

/-- The 16 bytes of a `struct sockaddr`: family and port, the next four bytes, and eight more.  The four
bytes are `sin_addr` in an IPv4 address and `sin6_flowinfo` in an IPv6 one; the last eight are only then
part of the address. -/
structure SockAddrHead where
  family : SaFamily
  port : BitVec 16
  word : BitVec 32
  rest : BitVec 64
deriving DecidableEq, Repr

namespace SockAddr

def head : SockAddr → SockAddrHead
  | .inet port addr => ⟨.inet, port, addr, 0⟩
  | .inet6 port flowinfo addr _ => ⟨.inet6, port, flowinfo, addr.extractLsb' 64 64⟩

def port : SockAddr → BitVec 16
  | .inet port _ => port
  | .inet6 port _ _ _ => port

/-- The address with another port. -/
def withPort : SockAddr → BitVec 16 → SockAddr
  | .inet _ addr, port => .inet port addr
  | .inet6 _ flowinfo addr scope_id, port => .inet6 port flowinfo addr scope_id

end SockAddr

/-- The addresses are taken for equal (`sockaddr_cmp` returns 0).  It reads both as IPv4 addresses.
SOURCE: adapter/syscall/ff_socket_ops.c:44-64 -/
def sockaddrCmp (a b : SockAddrHead) : Bool :=
  a.family == b.family && a.port == b.port && a.word == b.word

/-- SOURCE: adapter/syscall/ff_socket_ops.c:37-42 -/
structure BoundInfo where
  fd : ℕ
  addr : SockAddrHead
deriving DecidableEq, Repr

def FF_MAX_BOUND_NUM : ℕ := 8

/-- The descriptor of the first used entry for an address, or 0.
SOURCE: adapter/syscall/ff_socket_ops.c:66-83 -/
def sockaddrIsBound (addr : SockAddrHead) : List BoundInfo → ℕ
  | [] => 0
  | info :: rest =>
    if info.fd = 0 then sockaddrIsBound addr rest
    else if sockaddrCmp info.addr addr then info.fd
    else sockaddrIsBound addr rest

/-- The first unused entry is filled.
SOURCE: adapter/syscall/ff_socket_ops.c:85-103 -/
def sockaddrBind (fd : ℕ) (addr : SockAddrHead) : List BoundInfo → List BoundInfo
  | [] => []
  | info :: rest =>
    if info.fd ≠ 0 then info :: sockaddrBind fd addr rest
    else ⟨fd, addr⟩ :: rest

/-- The first entry of a descriptor becomes unused.
SOURCE: adapter/syscall/ff_socket_ops.c:105-122 -/
def sockaddrUnbind (fd : ℕ) : List BoundInfo → List BoundInfo
  | [] => []
  | info :: rest =>
    if info.fd ≠ fd then info :: sockaddrUnbind fd rest
    else { info with fd := 0 } :: rest

/-- The table, the sockets of the descriptors, the addresses of the sockets, and how many sockets there
have been. -/
structure BoundState where
  table : List BoundInfo
  socket : ℕ → Option ℕ
  addr : ℕ → Option SockAddr
  made : ℕ

/-- Requests on descriptors; a port that the stack chooses is not 0. -/
inductive BoundReq where
  | socket (fd : ℕ)
  | bind (fd : ℕ) (addr : SockAddr) (refused : Bool) (ephemeral : { port : BitVec 16 // port ≠ 0 })
  | close (fd : ℕ)

namespace BoundState

def init : BoundState where
  table := List.replicate FF_MAX_BOUND_NUM ⟨0, ⟨.inet, 0, 0, 0⟩⟩
  socket _ := none
  addr _ := none
  made := 0

/-- The address that a descriptor is bound to; there is none if it is not open. -/
def boundTo (s : BoundState) (fd : ℕ) : Option SockAddr := s.socket fd >>= s.addr

/-- `ff_bind`: a socket is bound once. -/
def ffBind (s : BoundState) (fd : ℕ) (addr : SockAddr) (refused : Bool)
    (ephemeral : { port : BitVec 16 // port ≠ 0 }) : Option BoundState :=
  match s.socket fd with
  | none => none
  | some sock =>
    if (s.addr sock).isSome || refused then none
    else
      let addr := if addr.port = 0 then addr.withPort ephemeral.val else addr
      some { s with addr := Function.update s.addr sock (some addr) }

/-- `ff_dup2`: the second descriptor refers to the socket of the first. -/
def ffDup2 (s : BoundState) (oldfd newfd : ℕ) : BoundState :=
  { s with socket := Function.update s.socket newfd (s.socket oldfd) }

/-- The descriptor that `ff_sys_bind` duplicates for a request, if it does.
SOURCE: adapter/syscall/ff_socket_ops.c:136-139 -/
def duplicated (s : BoundState) (fd : ℕ) (addr : SockAddr) : Option ℕ :=
  let bound_fd := sockaddrIsBound addr.head s.table
  if bound_fd ≠ 0 ∧ bound_fd ≠ fd then some bound_fd else none

/-- SOURCE: adapter/syscall/ff_socket_ops.c:130-147 -/
def ffSysBind (s : BoundState) (fd : ℕ) (addr : SockAddr) (refused : Bool)
    (ephemeral : { port : BitVec 16 // port ≠ 0 }) : BoundState :=
  match s.duplicated fd addr with
  | some bound_fd => s.ffDup2 bound_fd fd
  | none =>
    match s.ffBind fd addr refused ephemeral with
    | none => s
    | some s' => { s' with table := sockaddrBind fd addr.head s'.table }

/-- SOURCE: adapter/syscall/ff_socket_ops.c:269-275 -/
def ffSysClose (s : BoundState) (fd : ℕ) : BoundState :=
  { s with
    table := sockaddrUnbind fd s.table
    socket := Function.update s.socket fd none }

/-- A request.  A new socket gets a number that is not in use; the others are made on open
descriptors. -/
def step (s : BoundState) : BoundReq → BoundState
  | .socket fd =>
    if (s.socket fd).isSome then s
    else { s with socket := Function.update s.socket fd (some s.made), made := s.made + 1 }
  | .bind fd addr refused ephemeral =>
    if (s.socket fd).isSome then s.ffSysBind fd addr refused ephemeral else s
  | .close fd => if (s.socket fd).isSome then s.ffSysClose fd else s

end BoundState

end FStack.Model
