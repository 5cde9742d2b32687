import FStack.Model.ControlMsg

/-!
# Walking a control buffer

What `NXTHDR` answers at a message that is whole in its buffer, and which bytes a walk depends on: those
of the buffer from its first message on (`walk_congr`).
-/

set_option autoImplicit false

namespace FStack.Analysis

open FStack.Model FStack.Prelude

section Primitives

variable {side side' : CmsgSide} {mem : Memory} {addr dst src n v : ℕ}

@[simp] theorem loadLe_val : (loadLe side mem addr n).val = readLe mem addr n := rfl

@[simp] theorem storeLe_val : (storeLe side mem addr n v).val = writeLe mem addr n v := rfl

@[simp] theorem copyData_val :
    (copyData side side' mem dst src n).val = writeAt mem dst (readAt mem src n) := rfl

@[simp] theorem loadLe_log : (loadLe side mem addr n).log = [⟨side, false, addr, n⟩] := rfl

@[simp] theorem storeLe_log : (storeLe side mem addr n v).log = [⟨side, true, addr, n⟩] := rfl

@[simp] theorem copyData_log : (copyData side side' mem dst src n).log =
    [⟨side', false, src, n⟩, ⟨side, true, dst, n⟩] := rfl

end Primitives

section Fields

variable (mem : Memory) (cmsg v : ℕ)

@[simp] theorem cmsghdr_getLen :
    cmsghdr.getLen mem cmsg = loadLe .freebsd mem cmsg 4 := rfl

@[simp] theorem cmsghdr_setLen :
    cmsghdr.setLen mem cmsg v = storeLe .freebsd mem cmsg 4 v := rfl

@[simp] theorem cmsghdr_getLevel :
    cmsghdr.getLevel mem cmsg = loadLe .freebsd mem (cmsg + 4) 4 := rfl

@[simp] theorem cmsghdr_setLevel :
    cmsghdr.setLevel mem cmsg v = storeLe .freebsd mem (cmsg + 4) 4 v := rfl

@[simp] theorem cmsghdr_getType :
    cmsghdr.getType mem cmsg = loadLe .freebsd mem (cmsg + 8) 4 := rfl

@[simp] theorem cmsghdr_setType :
    cmsghdr.setType mem cmsg v = storeLe .freebsd mem (cmsg + 8) 4 v := rfl

@[simp] theorem cmsghdr_cmsgData : cmsghdr.cmsgData cmsg = cmsg + 16 := rfl

@[simp] theorem linuxCmsghdr_getLen :
    linuxCmsghdr.getLen mem cmsg = loadLe .linux mem cmsg 8 := rfl

@[simp] theorem linuxCmsghdr_setLen :
    linuxCmsghdr.setLen mem cmsg v = storeLe .linux mem cmsg 8 v := rfl

@[simp] theorem linuxCmsghdr_getLevel :
    linuxCmsghdr.getLevel mem cmsg = loadLe .linux mem (cmsg + 8) 4 := rfl

@[simp] theorem linuxCmsghdr_setLevel :
    linuxCmsghdr.setLevel mem cmsg v = storeLe .linux mem (cmsg + 8) 4 v := rfl

@[simp] theorem linuxCmsghdr_getType :
    linuxCmsghdr.getType mem cmsg = loadLe .linux mem (cmsg + 12) 4 := rfl

@[simp] theorem linuxCmsghdr_setType :
    linuxCmsghdr.setType mem cmsg v = storeLe .linux mem (cmsg + 12) 4 v := rfl

@[simp] theorem linuxCmsghdr_cmsgData : linuxCmsghdr.cmsgData cmsg = cmsg + 16 := rfl

end Fields

/-- The header takes 16 bytes with its padding, and its fields are among them. -/
structure HeaderPadded (h : CmsgLayout) : Prop where
  size : align h.size = 16
  lenSize : h.lenSize ≤ 16
  levelAt : h.levelAt + 4 ≤ 16
  typeAt : h.typeAt + 4 ≤ 16

theorem cmsghdr_padded : HeaderPadded cmsghdr :=
  ⟨by decide, by decide, by decide, by decide⟩

theorem linuxCmsghdr_padded : HeaderPadded linuxCmsghdr :=
  ⟨by decide, by decide, by decide, by decide⟩

/-- The bytes from the header of a message of length `len` to the header of the next one. -/
def cmsgSpace (len : ℕ) : ℕ := (len + 7) / 8 * 8

theorem le_cmsgSpace (len : ℕ) : len ≤ cmsgSpace len := by
  unfold cmsgSpace
  omega

theorem align_eq_cmsgSpace {len : ℕ} (h : len ≤ userEnd) : align len = cmsgSpace len := by
  unfold align cmsgSpace
  unfold userEnd at h
  omega

/-- The message behind one of length `len` at `cmsg`. -/
def nextCmsg (mhdr : Msghdr) (cmsg len : ℕ) : Option ℕ :=
  if cmsg + cmsgSpace len + 16 > mhdr.controlEnd then none else some (cmsg + cmsgSpace len)

section Walk

variable {h : CmsgLayout} {mhdr : Msghdr} {mem mem' : Memory} {cmsg len : ℕ} {m : Cmsg}

theorem at_cmsghdr_iff : cmsghdr.At mem cmsg m ↔ readLe mem cmsg 4 = m.len ∧
    readLe mem (cmsg + 4) 4 = m.level ∧ readLe mem (cmsg + 8) 4 = m.type ∧
    readAt mem (cmsg + 16) m.data.length = m.data := Iff.rfl

theorem at_linuxCmsghdr_iff : linuxCmsghdr.At mem cmsg m ↔ readLe mem cmsg 8 = m.len ∧
    readLe mem (cmsg + 8) 4 = m.level ∧ readLe mem (cmsg + 12) 4 = m.type ∧
    readAt mem (cmsg + 16) m.data.length = m.data := Iff.rfl

theorem nxthdr_val : (h.nxthdr mhdr mem cmsg).val =
    if (cmsg + align (h.getLen mem cmsg).val + align h.size) % 2 ^ 64 > mhdr.controlEnd then none
    else some ((cmsg + align (h.getLen mem cmsg).val) % 2 ^ 64) := by
  unfold CmsgLayout.nxthdr Msghdr.controlEnd
  simp only [Logged.val_bind]
  split
  · rfl
  · rfl

/-- INTERNAL: inside the buffer the address arithmetic does not wrap. -/
theorem nxthdr_of_len (hp : HeaderPadded h) (hlen : (h.getLen mem cmsg).val = len)
    (hend : cmsg + len ≤ mhdr.controlEnd) :
    (h.nxthdr mhdr mem cmsg).val = nextCmsg mhdr cmsg len := by
  have huser : mhdr.controlEnd ≤ userEnd := mhdr.user
  have halign : align len = cmsgSpace len := align_eq_cmsgSpace (by omega)
  have hspace : cmsgSpace len ≤ len + 7 := by
    unfold cmsgSpace
    omega
  rw [nxthdr_val, hlen, halign, hp.size, nextCmsg]
  unfold userEnd at huser
  have hsum : (cmsg + cmsgSpace len + 16) % 2 ^ 64 = cmsg + cmsgSpace len + 16 := by omega
  have hnext : (cmsg + cmsgSpace len) % 2 ^ 64 = cmsg + cmsgSpace len := by omega
  rw [hsum, hnext]

theorem le_of_nextCmsg {next : ℕ} (hnext : nextCmsg mhdr cmsg len = some next) :
    next = cmsg + cmsgSpace len ∧ next + 16 ≤ mhdr.controlEnd := by
  unfold nextCmsg at hnext
  split at hnext
  · cases hnext
  · cases hnext
    exact ⟨rfl, by omega⟩

/-- A message depends on its own bytes. -/
theorem at_congr (hp : HeaderPadded h)
    (hsame : ∀ i, cmsg ≤ i → i < cmsg + m.len → mem' i = mem i) (hat : h.At mem cmsg m) :
    h.At mem' cmsg m := by
  obtain ⟨hlen, hlevel, htype, hdata⟩ := hat
  have hl := hp.lenSize
  have hv := hp.levelAt
  have ht := hp.typeAt
  simp only [Cmsg.len] at hsame
  refine ⟨?_, ?_, ?_, ?_⟩
  · rw [← hlen]
    exact readLe_congr fun i hlo hhi => hsame i hlo (by omega)
  · rw [← hlevel]
    exact readLe_congr fun i hlo hhi => hsame i (by omega) (by omega)
  · rw [← htype]
    exact readLe_congr fun i hlo hhi => hsame i (by omega) (by omega)
  · rw [CmsgLayout.cmsgData, hp.size] at hdata ⊢
    rw [← hdata, length_readAt]
    exact readAt_congr fun i hlo hhi => hsame i (by omega) (by omega)

/-- A walk depends on the bytes of the buffer from its first message on. -/
theorem walk_congr (hp : HeaderPadded h) {p : ℕ}
    (hsame : ∀ i, p ≤ i → i < mhdr.controlEnd → mem' i = mem i)
    {ms : List Cmsg} {o : Option ℕ} (ho : ∀ cmsg, o = some cmsg → p ≤ cmsg)
    (hwalk : h.Walk mhdr mem o ms) : h.Walk mhdr mem' o ms := by
  induction ms generalizing o with
  | nil =>
    cases o with
    | none => trivial
    | some cmsg => exact hwalk.elim
  | cons m ms ih =>
    cases o with
    | none => exact hwalk.elim
    | some cmsg =>
      obtain ⟨hat, hend, hrest⟩ := hwalk
      have hcmsg : p ≤ cmsg := ho cmsg rfl
      have hat' : h.At mem' cmsg m := at_congr hp (fun i hlo hhi => hsame i (by omega) (by omega)) hat
      have hnext := nxthdr_of_len hp hat.1 hend
      have hnext' := nxthdr_of_len hp hat'.1 hend
      refine ⟨hat', hend, ?_⟩
      rw [hnext']
      rw [hnext] at hrest
      refine ih ?_ hrest
      intro next hsome
      have hle := le_of_nextCmsg hsome
      omega

end Walk

/-- A round at two messages: the body, and `NXTHDR` on what it has left. -/
theorem cmsgRound_call (body : CmsgBody) (linux_msg freebsd_msg : Msghdr) {s : CmsgLoop}
    {freebsd_cmsg linux_cmsg : ℕ} (hfreebsd : s.freebsd_cmsg = some freebsd_cmsg)
    (hlinux : s.linux_cmsg = some linux_cmsg) :
    cmsgRound body linux_msg freebsd_msg s = .call
      { mem := (body s.mem freebsd_cmsg linux_cmsg).val
        freebsd_cmsg := (cmsghdr.nxthdr freebsd_msg (body s.mem freebsd_cmsg linux_cmsg).val
          freebsd_cmsg).val
        linux_cmsg := (linuxCmsghdr.nxthdr linux_msg (body s.mem freebsd_cmsg linux_cmsg).val
          linux_cmsg).val
        log := s.log ++ (cmsgAdvance body linux_msg freebsd_msg s.mem freebsd_cmsg linux_cmsg).log } := by
  unfold cmsgRound
  rw [hfreebsd, hlinux]
  rfl

/-- The loop ends where a list ends. -/
theorem cmsgRound_ret {body : CmsgBody} {linux_msg freebsd_msg : Msghdr} {s : CmsgLoop}
    (h : s.freebsd_cmsg = none ∨ s.linux_cmsg = none) :
    cmsgRound body linux_msg freebsd_msg s = .ret s := by
  unfold cmsgRound
  cases hfreebsd : s.freebsd_cmsg with
  | none => rfl
  | some _ =>
    cases hlinux : s.linux_cmsg with
    | none => rfl
    | some _ => simp [hfreebsd, hlinux] at h

end FStack.Analysis
