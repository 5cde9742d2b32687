import FStack.Model.PacketFilter
import FStack.Prelude.ByteMemory
import FStack.Prelude.Logged

/-!
# Control messages

The ancillary data of `recvmsg` and `sendmsg` is a row of control messages in one buffer.  FreeBSD has a
header of 12 bytes (a 32-bit length, the level, the type), Linux one of 16 bytes (a 64-bit length, the
level, the type); both align the data to 8 bytes, so that the data of a message stands at offset 16 in
both.  The macros that walk the buffer are the same up to the header (`CmsgLayout`).

`freebsd2linux_cmsghdr` rewrites the headers where they stand, `linux2freebsd_cmsg` writes a second
buffer.  Addresses are 64-bit numbers in one memory; the two functions also write down which bytes they
touch and through which of their two pointers.  The machine is little-endian.
-/

set_option autoImplicit false

namespace FStack.Model

open FStack.Prelude

/-- Whose message a pointer of the loop stands at. -/
inductive CmsgSide where
  | freebsd
  | linux
deriving DecidableEq, Repr

/-- `size` bytes from `addr` on are read or written. -/
structure CmsgAccess where
  side : CmsgSide
  store : Bool
  addr : ℕ
  size : ℕ
deriving DecidableEq, Repr

/-- A computation that reads and writes messages. -/
abbrev Touching (α : Type) := Logged CmsgAccess α

/-- Where the fields of a control message header are. -/
structure CmsgLayout where
  side : CmsgSide
  size : ℕ
  lenSize : ℕ
  levelAt : ℕ
  typeAt : ℕ
deriving DecidableEq, Repr

/-- SOURCE: freebsd/sys/socket.h:492-497 -/
def cmsghdr : CmsgLayout where
  side := .freebsd
  size := 12
  lenSize := 4
  levelAt := 4
  typeAt := 8

/-- SOURCE: lib/ff_syscall_wrapper.c:247-256 -/
def linuxCmsghdr : CmsgLayout where
  side := .linux
  size := 16
  lenSize := 8
  levelAt := 8
  typeAt := 12

/-- End of the addresses of a process. -/
def userEnd : ℕ := 2 ^ 47

/-- The control fields of a `struct msghdr` or `struct linux_msghdr`. -/
structure Msghdr where
  msg_control : ℕ
  msg_controllen : ℕ
  user : msg_control + msg_controllen ≤ userEnd

/-- First address behind the control buffer. -/
def Msghdr.controlEnd (m : Msghdr) : ℕ := m.msg_control + m.msg_controllen

def loadLe (side : CmsgSide) (mem : Memory) (addr n : ℕ) : Touching ℕ := do
  Logged.emit ⟨side, false, addr, n⟩
  return readLe mem addr n

def storeLe (side : CmsgSide) (mem : Memory) (addr n v : ℕ) : Touching Memory := do
  Logged.emit ⟨side, true, addr, n⟩
  return writeLe mem addr n v

/-- `memcpy` from a message of one side to a message of the other. -/
def copyData (dstSide srcSide : CmsgSide) (mem : Memory) (dst src n : ℕ) : Touching Memory := do
  Logged.emits [⟨srcSide, false, src, n⟩, ⟨dstSide, true, dst, n⟩]
  return writeAt mem dst (readAt mem src n)

namespace CmsgLayout

variable (h : CmsgLayout)

def getLen (mem : Memory) (cmsg : ℕ) : Touching ℕ := loadLe h.side mem cmsg h.lenSize

def getLevel (mem : Memory) (cmsg : ℕ) : Touching ℕ := loadLe h.side mem (cmsg + h.levelAt) 4

def getType (mem : Memory) (cmsg : ℕ) : Touching ℕ := loadLe h.side mem (cmsg + h.typeAt) 4

def setLen (mem : Memory) (cmsg v : ℕ) : Touching Memory := storeLe h.side mem cmsg h.lenSize v

def setLevel (mem : Memory) (cmsg v : ℕ) : Touching Memory :=
  storeLe h.side mem (cmsg + h.levelAt) 4 v

def setType (mem : Memory) (cmsg v : ℕ) : Touching Memory :=
  storeLe h.side mem (cmsg + h.typeAt) 4 v

end CmsgLayout

/-- `_ALIGN`.  SOURCE: freebsd/x86/include/_align.h:48-49 -/
def align (p : ℕ) : ℕ := (p + 7) % 2 ^ 64 / 8 * 8

/-- `a - b` in 64 bits. -/
def sub64 (a b : ℕ) : ℕ := (a + 2 ^ 64 - b) % 2 ^ 64

/-- `CMSG_LEN` and `LINUX_CMSG_LEN`: both headers are padded to 16 bytes. -/
def CmsgLayout.cmsgLen (h : CmsgLayout) (l : ℕ) : ℕ := (align h.size + l) % 2 ^ 64

/-- `CMSG_DATA` and `LINUX_CMSG_DATA`. -/
def CmsgLayout.cmsgData (h : CmsgLayout) (cmsg : ℕ) : ℕ := cmsg + align h.size

/-- `CMSG_FIRSTHDR` and `LINUX_CMSG_FIRSTHDR`.
SOURCE: freebsd/sys/socket.h:577-580, lib/ff_syscall_wrapper.c:267-270 -/
def CmsgLayout.firsthdr (h : CmsgLayout) (mhdr : Msghdr) : Option ℕ :=
  if mhdr.msg_controllen ≥ h.size then some mhdr.msg_control else none

/-- `CMSG_NXTHDR` and `LINUX_CMSG_NXTHDR` at a message.
SOURCE: freebsd/sys/socket.h:564-571, lib/ff_syscall_wrapper.c:272-279 -/
def CmsgLayout.nxthdr (h : CmsgLayout) (mhdr : Msghdr) (mem : Memory) (cmsg : ℕ) :
    Touching (Option ℕ) := do
  let cmsg_len ← h.getLen mem cmsg
  if (cmsg + align cmsg_len + align h.size) % 2 ^ 64 > mhdr.msg_control + mhdr.msg_controllen then
    return none
  else
    let cmsg_len ← h.getLen mem cmsg
    return some ((cmsg + align cmsg_len) % 2 ^ 64)

def IPPROTO_IP : ℕ := 0
def IPPROTO_IPV6 : ℕ := 41

def IP_TOS : ℕ := 3
def IP_TTL : ℕ := 4
def IP_RECVTTL : ℕ := 65
def IP_RECVTOS : ℕ := 68
def IPV6_PKTINFO : ℕ := 46

def LINUX_IP_TOS : ℕ := 1
def LINUX_IP_TTL : ℕ := 2
def LINUX_IPV6_PKTINFO : ℕ := 50

/-- The variables of the two loops, and what has been touched so far. -/
structure CmsgLoop where
  mem : Memory
  freebsd_cmsg : Option ℕ
  linux_cmsg : Option ℕ
  log : List CmsgAccess

/-- The body of a loop, at the messages `freebsd_cmsg` and `linux_cmsg`. -/
abbrev CmsgBody := Memory → ℕ → ℕ → Touching Memory

/-- The end of a round: both pointers are moved on. -/
def cmsgAdvance (body : CmsgBody) (linux_msg freebsd_msg : Msghdr) (mem : Memory)
    (freebsd_cmsg linux_cmsg : ℕ) : Touching (Memory × Option ℕ × Option ℕ) := do
  let mem ← body mem freebsd_cmsg linux_cmsg
  let linux_cmsg ← linuxCmsghdr.nxthdr linux_msg mem linux_cmsg
  let freebsd_cmsg ← cmsghdr.nxthdr freebsd_msg mem freebsd_cmsg
  return (mem, freebsd_cmsg, linux_cmsg)

/-- `while (freebsd_cmsg && linux_cmsg)`. -/
def cmsgRound (body : CmsgBody) (linux_msg freebsd_msg : Msghdr) (s : CmsgLoop) :
    Outcome CmsgLoop CmsgLoop :=
  match s.freebsd_cmsg, s.linux_cmsg with
  | some freebsd_cmsg, some linux_cmsg =>
    let r := cmsgAdvance body linux_msg freebsd_msg s.mem freebsd_cmsg linux_cmsg
    .call ⟨r.val.1, r.val.2.1, r.val.2.2, s.log ++ r.log⟩
  | _, _ => .ret s

/-- The loop is entered with the first message of both buffers. -/
def cmsgStart (linux_msg freebsd_msg : Msghdr) (mem : Memory) : CmsgLoop where
  mem := mem
  freebsd_cmsg := cmsghdr.firsthdr freebsd_msg
  linux_cmsg := linuxCmsghdr.firsthdr linux_msg
  log := []

/-- The `memcpy` that stands in two branches of the loop.
SOURCE: lib/ff_syscall_wrapper.c:759,765 -/
def freebsd2linuxCmsghdrCopy : CmsgBody := fun mem freebsd_cmsg linux_cmsg => do
  let cmsg_len ← linuxCmsghdr.getLen mem linux_cmsg
  copyData .linux .freebsd mem (linuxCmsghdr.cmsgData linux_cmsg) (cmsghdr.cmsgData freebsd_cmsg)
    (sub64 cmsg_len linuxCmsghdr.size)

/-- The header is assigned.  SOURCE: lib/ff_syscall_wrapper.c:735-737 -/
def freebsd2linuxCmsghdrHeader : CmsgBody := fun mem freebsd_cmsg linux_cmsg => do
  -- the two headers may be the same bytes, so the fields are moved last first
  let mem ← linuxCmsghdr.setType mem linux_cmsg (← cmsghdr.getType mem freebsd_cmsg)
  let mem ← linuxCmsghdr.setLevel mem linux_cmsg (← cmsghdr.getLevel mem freebsd_cmsg)
  let cmsg_len ← cmsghdr.getLen mem freebsd_cmsg
  linuxCmsghdr.setLen mem linux_cmsg
    (linuxCmsghdr.cmsgLen (sub64 cmsg_len (align cmsghdr.size)))

/-- The `switch` on the level and the type.  SOURCE: lib/ff_syscall_wrapper.c:744-767 -/
def freebsd2linuxCmsghdrSwitch : CmsgBody := fun mem freebsd_cmsg linux_cmsg => do
  let freebsd_optval := cmsghdr.cmsgData freebsd_cmsg
  let linux_optval := linuxCmsghdr.cmsgData linux_cmsg
  let cmsg_level ← linuxCmsghdr.getLevel mem linux_cmsg
  if cmsg_level = IPPROTO_IP then
    let cmsg_type ← linuxCmsghdr.getType mem linux_cmsg
    if cmsg_type = IP_RECVTOS then
      let mem ← linuxCmsghdr.setType mem linux_cmsg LINUX_IP_TOS
      storeLe .linux mem linux_optval 1 (← loadLe .freebsd mem freebsd_optval 1)
    else if cmsg_type = IP_RECVTTL then
      let mem ← linuxCmsghdr.setLen mem linux_cmsg (linuxCmsghdr.cmsgLen 4)
      let mem ← linuxCmsghdr.setType mem linux_cmsg LINUX_IP_TTL
      storeLe .linux mem linux_optval 4 (← loadLe .freebsd mem freebsd_optval 1)
    else
      freebsd2linuxCmsghdrCopy mem freebsd_cmsg linux_cmsg
  else
    freebsd2linuxCmsghdrCopy mem freebsd_cmsg linux_cmsg

/-- SOURCE: lib/ff_syscall_wrapper.c:723-767 -/
def freebsd2linuxCmsghdrBody : CmsgBody := fun mem freebsd_cmsg linux_cmsg => do
  let mem ← freebsd2linuxCmsghdrHeader mem freebsd_cmsg linux_cmsg
  freebsd2linuxCmsghdrSwitch mem freebsd_cmsg linux_cmsg

/-- One round of `freebsd2linux_cmsghdr`.  SOURCE: lib/ff_syscall_wrapper.c:717-774 -/
def freebsd2linuxCmsghdr (linux_msg freebsd_msg : Msghdr) :
    CmsgLoop → Outcome CmsgLoop CmsgLoop :=
  cmsgRound freebsd2linuxCmsghdrBody linux_msg freebsd_msg

/-- `sizeof(struct in6_pktinfo)`. -/
def sizeofIn6Pktinfo : ℕ := 20

/-- The `memcpy` that stands in three branches of the loop.
SOURCE: lib/ff_syscall_wrapper.c:814,826,831 -/
def linux2freebsdCmsgCopy : CmsgBody := fun mem freebsd_cmsg linux_cmsg => do
  let cmsg_len ← linuxCmsghdr.getLen mem linux_cmsg
  copyData .freebsd .linux mem (cmsghdr.cmsgData freebsd_cmsg) (linuxCmsghdr.cmsgData linux_cmsg)
    (sub64 cmsg_len linuxCmsghdr.size)

/-- The header is assigned.  SOURCE: lib/ff_syscall_wrapper.c:786-788 -/
def linux2freebsdCmsgHeader : CmsgBody := fun mem freebsd_cmsg linux_cmsg => do
  let mem ← cmsghdr.setType mem freebsd_cmsg (← linuxCmsghdr.getType mem linux_cmsg)
  let mem ← cmsghdr.setLevel mem freebsd_cmsg (← linuxCmsghdr.getLevel mem linux_cmsg)
  let cmsg_len ← linuxCmsghdr.getLen mem linux_cmsg
  cmsghdr.setLen mem freebsd_cmsg
    (cmsghdr.cmsgLen (sub64 cmsg_len (align linuxCmsghdr.size)))

/-- The `switch` on the level and the type.  SOURCE: lib/ff_syscall_wrapper.c:790-833 -/
def linux2freebsdCmsgSwitch : CmsgBody := fun mem freebsd_cmsg linux_cmsg => do
  let freebsd_optval := cmsghdr.cmsgData freebsd_cmsg
  let linux_optval := linuxCmsghdr.cmsgData linux_cmsg
  let cmsg_level ← linuxCmsghdr.getLevel mem linux_cmsg
  if cmsg_level = IPPROTO_IP then
    let cmsg_type ← linuxCmsghdr.getType mem linux_cmsg
    if cmsg_type = LINUX_IP_TOS then
      let mem ← cmsghdr.setType mem freebsd_cmsg IP_TOS
      let mem ← cmsghdr.setLen mem freebsd_cmsg (cmsghdr.cmsgLen 1)
      let cmsg_len ← linuxCmsghdr.getLen mem linux_cmsg
      if cmsg_len = linuxCmsghdr.cmsgLen 4 then
        storeLe .freebsd mem freebsd_optval 1 (← loadLe .linux mem linux_optval 4)
      else if cmsg_len = linuxCmsghdr.cmsgLen 1 then
        storeLe .freebsd mem freebsd_optval 1 (← loadLe .linux mem linux_optval 1)
      else
        return mem
    else if cmsg_type = LINUX_IP_TTL then
      let mem ← cmsghdr.setType mem freebsd_cmsg IP_TTL
      let mem ← cmsghdr.setLen mem freebsd_cmsg (cmsghdr.cmsgLen 1)
      storeLe .freebsd mem freebsd_optval 1 (← loadLe .linux mem linux_optval 4)
    else
      linux2freebsdCmsgCopy mem freebsd_cmsg linux_cmsg
  else if cmsg_level = IPPROTO_IPV6 then
    let cmsg_type ← linuxCmsghdr.getType mem linux_cmsg
    if cmsg_type = LINUX_IPV6_PKTINFO then
      let mem ← cmsghdr.setType mem freebsd_cmsg IPV6_PKTINFO
      copyData .freebsd .linux mem freebsd_optval linux_optval sizeofIn6Pktinfo
    else
      linux2freebsdCmsgCopy mem freebsd_cmsg linux_cmsg
  else
    linux2freebsdCmsgCopy mem freebsd_cmsg linux_cmsg

/-- SOURCE: lib/ff_syscall_wrapper.c:782-833 -/
def linux2freebsdCmsgBody : CmsgBody := fun mem freebsd_cmsg linux_cmsg => do
  let mem ← linux2freebsdCmsgHeader mem freebsd_cmsg linux_cmsg
  linux2freebsdCmsgSwitch mem freebsd_cmsg linux_cmsg

/-- One round of `linux2freebsd_cmsg`.  SOURCE: lib/ff_syscall_wrapper.c:776-840 -/
def linux2freebsdCmsg (linux_msg freebsd_msg : Msghdr) : CmsgLoop → Outcome CmsgLoop CmsgLoop :=
  cmsgRound linux2freebsdCmsgBody linux_msg freebsd_msg

/-- The headers that `ff_recvmsg` converts: both stand for the one control buffer, of which
`kern_recvit` has filled a part.  SOURCE: lib/ff_syscall_wrapper.c:1530-1553 -/
structure RecvControl where
  linux_msg : Msghdr
  freebsd_msg : Msghdr
  shared : freebsd_msg.msg_control = linux_msg.msg_control
  received : freebsd_msg.msg_controllen ≤ linux_msg.msg_controllen

/-- The Linux header when `freebsd2linux_msghdr` is done with it.
SOURCE: lib/ff_syscall_wrapper.c:865-868 -/
def RecvControl.linuxAfter (r : RecvControl) : Msghdr where
  msg_control := r.linux_msg.msg_control
  msg_controllen := r.freebsd_msg.msg_controllen
  user := le_trans (Nat.add_le_add_left r.received _) r.linux_msg.user

/-- The buffers of `ff_sendmsg`: the control buffer of the caller, and a new one of the same size.
SOURCE: lib/ff_syscall_wrapper.c:1444-1452 -/
structure SendControl where
  linux_msg : Msghdr
  freebsd_cmsg : ℕ
  user : freebsd_cmsg + linux_msg.msg_controllen ≤ userEnd
  fresh : freebsd_cmsg + linux_msg.msg_controllen ≤ linux_msg.msg_control ∨
    linux_msg.controlEnd ≤ freebsd_cmsg

/-- The FreeBSD header of the message sent; its `msg_controllen` is a `socklen_t`.
SOURCE: lib/ff_syscall_wrapper.c:900 -/
def SendControl.freebsd_msg (b : SendControl) : Msghdr where
  msg_control := b.freebsd_cmsg
  msg_controllen := b.linux_msg.msg_controllen % 2 ^ 32
  user := le_trans (Nat.add_le_add_left (Nat.mod_le _ _) _) b.user

/-- End of the memory allocated for the FreeBSD messages. -/
def SendControl.allocEnd (b : SendControl) : ℕ := b.freebsd_cmsg + b.linux_msg.msg_controllen

/-- A control message as its sender means it. -/
structure Cmsg where
  level : ℕ
  type : ℕ
  data : List UInt8
deriving DecidableEq, Repr

/-- `cmsg_len` of the message. -/
def Cmsg.len (m : Cmsg) : ℕ := 16 + m.data.length

/-- The message `m` stands at `cmsg`, in the format `h`. -/
def CmsgLayout.At (h : CmsgLayout) (mem : Memory) (cmsg : ℕ) (m : Cmsg) : Prop :=
  (h.getLen mem cmsg).val = m.len ∧ (h.getLevel mem cmsg).val = m.level ∧
    (h.getType mem cmsg).val = m.type ∧ readAt mem (h.cmsgData cmsg) m.data.length = m.data

instance (h : CmsgLayout) (mem : Memory) (cmsg : ℕ) (m : Cmsg) : Decidable (h.At mem cmsg m) := by
  unfold CmsgLayout.At
  infer_instance

/-- A walk with `NXTHDR` from a message on finds the messages `ms`, each of them whole in the buffer,
and no other. -/
def CmsgLayout.Walk (h : CmsgLayout) (mhdr : Msghdr) (mem : Memory) : Option ℕ → List Cmsg → Prop
  | none, [] => True
  | some cmsg, m :: ms => h.At mem cmsg m ∧ cmsg + m.len ≤ mhdr.controlEnd ∧
    h.Walk mhdr mem (h.nxthdr mhdr mem cmsg).val ms
  | _, _ => False

instance CmsgLayout.Walk.decidable (h : CmsgLayout) (mhdr : Msghdr) (mem : Memory) :
    ∀ (o : Option ℕ) (ms : List Cmsg), Decidable (h.Walk mhdr mem o ms)
  | none, [] => inferInstanceAs (Decidable True)
  | some cmsg, m :: ms =>
    have := CmsgLayout.Walk.decidable h mhdr mem (h.nxthdr mhdr mem cmsg).val ms
    inferInstanceAs (Decidable (h.At mem cmsg m ∧ cmsg + m.len ≤ mhdr.controlEnd ∧
      h.Walk mhdr mem (h.nxthdr mhdr mem cmsg).val ms))
  | none, _ :: _ => inferInstanceAs (Decidable False)
  | some _, [] => inferInstanceAs (Decidable False)

/-- The control buffer holds the messages `ms`. -/
def CmsgLayout.Holds (h : CmsgLayout) (mhdr : Msghdr) (mem : Memory) (ms : List Cmsg) : Prop :=
  h.Walk mhdr mem (h.firsthdr mhdr) ms

instance (h : CmsgLayout) (mhdr : Msghdr) (mem : Memory) (ms : List Cmsg) :
    Decidable (h.Holds mhdr mem ms) := by
  unfold CmsgLayout.Holds
  infer_instance

end FStack.Model
