import FStack.Prelude.ByteMemory

/-!
# Socket addresses

`linux2freebsd_sockaddr` and `freebsd2linux_sockaddr` (`lib/ff_syscall_wrapper.c`), with the calls
that hand an address of the caller to the FreeBSD stack: `ff_bind`, `ff_connect`, `ff_sendto` and
`ff_route_ctl`.

Addresses are read and written in a memory of bytes, through pointers, 0 being `NULL`.  A Linux
address starts with a family of 16 bits, a FreeBSD address with a length and a family of 8 bits each;
the data follow at offset 2 in both.
-/

set_option autoImplicit false

namespace FStack.Model

open FStack.Prelude

abbrev Ram := ℕ → UInt8

def LINUX_AF_INET6 : ℕ := 10

/-- Both systems have the same number for it. -/
def LINUX_AF_INET : ℕ := 2

def AF_INET6_FREEBSD : ℕ := 28

/-- `sizeof(struct sockaddr_storage)`. -/
def SS_MAXSIZE : ℕ := 128

/-- A subtraction of 2 in `size_t`. -/
def sizeSub2 (n : ℕ) : ℕ := (n + 2 ^ 64 - 2) % 2 ^ 64

/-- `bcopy`. -/
def bcopy (mem : Ram) (src dst n : ℕ) : Ram := writeAt mem dst (readAt mem src n)

/-- `linux2freebsd_sockaddr`, with the number of bytes it copies.
SOURCE: lib/ff_syscall_wrapper.c:685-700 -/
def linux2freebsdSockaddr (mem : Ram) (linux addrlen freebsd : ℕ) : Ram × ℕ :=
  if linux = 0 ∨ freebsd = 0 then (mem, 0)
  else
    let family := readLe mem linux 2
    let mem := writeLe mem (freebsd + 1) 1 (if family = LINUX_AF_INET6 then AF_INET6_FREEBSD else family)
    let mem := writeLe mem freebsd 1 addrlen
    if linux + 2 ≠ freebsd + 2 then
      (bcopy mem (linux + 2) (freebsd + 2) (sizeSub2 addrlen), sizeSub2 addrlen)
    else (mem, 0)

/-- `freebsd2linux_sockaddr`.
SOURCE: lib/ff_syscall_wrapper.c:702-715 -/
def freebsd2linuxSockaddr (mem : Ram) (linux freebsd : ℕ) : Ram :=
  if linux = 0 ∨ freebsd = 0 then mem
  else
    let mem :=
      if linux + 2 ≠ freebsd + 2 then
        bcopy mem (freebsd + 2) (linux + 2) (sizeSub2 (readLe mem freebsd 1))
      else mem
    let family := readLe mem (freebsd + 1) 1
    writeLe mem linux 2 (if family = AF_INET6_FREEBSD then LINUX_AF_INET6 else family)

/-! ## The calls

Each has its `bsdaddr` on its stack.
-/

/-- `ff_bind`, up to `kern_bindat`.
SOURCE: lib/ff_syscall_wrapper.c:1724-1737 -/
def ffBindAddr (mem : Ram) (addr : ℕ) (addrlen : UInt32) (bsdaddr : ℕ) : Ram × ℕ :=
  linux2freebsdSockaddr mem addr addrlen.toNat bsdaddr

/-- `ff_connect`, up to `kern_connectat`.
SOURCE: lib/ff_syscall_wrapper.c:1753-1764 -/
def ffConnectAddr (mem : Ram) (name : ℕ) (namelen : UInt32) (bsdaddr : ℕ) : Ram × ℕ :=
  linux2freebsdSockaddr mem name namelen.toNat bsdaddr

/-- `ff_sendto`, up to `sendit`.
SOURCE: lib/ff_syscall_wrapper.c:1388-1412 -/
def ffSendtoAddr (mem : Ram) (dest : ℕ) (tolen : UInt32) (bsdaddr : ℕ) : Ram × ℕ :=
  if dest ≠ 0 then linux2freebsdSockaddr mem dest tolen.toNat bsdaddr else (mem, 0)

/-- `sizeof(struct linux_sockaddr)`. -/
def sizeofLinuxSockaddr : ℕ := 16

/-- `enum FF_ROUTE_CTL`, or anything else. -/
inductive FfRouteCtl where
  | add
  | del
  | change
  | other

/-- `enum FF_ROUTE_FLAG`, or anything else. -/
inductive FfRouteFlag where
  | host
  | gateway
  | other

def FfRouteCtl.rtreq : FfRouteCtl → Option ℕ
  | .add => some 1
  | .del => some 2
  | .change => some 3
  | .other => none

def FfRouteFlag.rtflag : FfRouteFlag → Option ℕ
  | .host => some 4
  | .gateway => some 2
  | .other => none

/-- What `rib_action` is called with: `0` for an address that is not given. -/
structure RibAction where
  rtreq : ℕ
  rti_flags : ℕ
  gateway : ℕ
  dst : ℕ
  netmask : ℕ

/-- One address of `ff_route_ctl`, translated into the storage `sa`, with what goes to
`rib_action`. -/
def routeAddr (mem : Ram) (addr sa : ℕ) : Ram × ℕ :=
  if addr ≠ 0 then ((linux2freebsdSockaddr mem addr sizeofLinuxSockaddr sa).1, sa) else (mem, 0)

/-- `ff_route_ctl`, up to `rib_action`.
SOURCE: lib/ff_syscall_wrapper.c:2202-2266 -/
def ffRouteCtl (mem : Ram) (req : FfRouteCtl) (flag : FfRouteFlag) (dst gw netmask : ℕ)
    (sa_gw sa_dst sa_nm : ℕ) : Option (Ram × RibAction) :=
  match req.rtreq, flag.rtflag with
  | some rtreq, some rtflag =>
    let (mem, psa_gw) := routeAddr mem gw sa_gw
    let (mem, psa_dst) := routeAddr mem dst sa_dst
    let (mem, psa_nm) := routeAddr mem netmask sa_nm
    some (mem, ⟨rtreq, rtflag, psa_gw, psa_dst, psa_nm⟩)
  | _, _ => none

end FStack.Model
