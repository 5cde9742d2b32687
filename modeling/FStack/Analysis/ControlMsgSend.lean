import FStack.Analysis.ControlMsgWalk

/-!
# Control messages copied to a second buffer

`linux2freebsd_cmsg` walks the buffer of the caller and the new FreeBSD buffer with two pointers.  At a
list of well-formed messages both stand at the same offset all the time, and the new buffer receives the
same messages in FreeBSD terms (`sendRight_iff`), as long as its size fits the 32-bit `msg_controllen` and
is not 12 to 15, where only the FreeBSD macro sees a message.

No length is checked.  For other lists the bytes touched stay in the two buffers exactly if each message
that the loop comes to happens to fit (`MessageFits`); an ordinary message with a `cmsg_len` below 16 makes
the copied size wrap.
-/

set_option autoImplicit false

namespace FStack.Analysis

open FStack.Model FStack.Prelude

variable {P : CmsgAccess → Prop} {side : CmsgSide} {addr n : ℕ}

/-- The access stays in the buffer that its pointer stands for, and what is written is the new
buffer. -/
def Inside (b : SendControl) (e : CmsgAccess) : Prop :=
  match e.side with
  | .linux => e.store = false ∧ b.linux_msg.msg_control ≤ e.addr ∧
      e.addr + e.size ≤ b.linux_msg.controlEnd
  | .freebsd => b.freebsd_cmsg ≤ e.addr ∧ e.addr + e.size ≤ b.allocEnd

/-- The headers at the two pointers are in their buffers. -/
def HeadersFit (b : SendControl) (freebsd_cmsg linux_cmsg : ℕ) : Prop :=
  b.linux_msg.msg_control ≤ linux_cmsg ∧ linux_cmsg + 16 ≤ b.linux_msg.controlEnd ∧
    b.freebsd_cmsg ≤ freebsd_cmsg ∧ freebsd_cmsg + 12 ≤ b.allocEnd

/-- So many bytes of data are read from the Linux message and written to the FreeBSD message. -/
def DataFits (b : SendControl) (freebsd_cmsg linux_cmsg read written : ℕ) : Prop :=
  linux_cmsg + 16 + read ≤ b.linux_msg.controlEnd ∧ freebsd_cmsg + 16 + written ≤ b.allocEnd

/-- The data of a message with this header fits. -/
def PayloadFits (b : SendControl) (freebsd_cmsg linux_cmsg level type len : ℕ) : Prop :=
  if level = IPPROTO_IP ∧ type = LINUX_IP_TOS then
    (len = 20 → DataFits b freebsd_cmsg linux_cmsg 4 1) ∧
      (len = 17 → DataFits b freebsd_cmsg linux_cmsg 1 1)
  else if level = IPPROTO_IP ∧ type = LINUX_IP_TTL then DataFits b freebsd_cmsg linux_cmsg 4 1
  else if level = IPPROTO_IPV6 ∧ type = LINUX_IPV6_PKTINFO then
    DataFits b freebsd_cmsg linux_cmsg 20 20
  else 16 ≤ len ∧ DataFits b freebsd_cmsg linux_cmsg (len - 16) (len - 16)

/-- The message at `linux_cmsg` can be copied to `freebsd_cmsg`. -/
def MessageFits (b : SendControl) (mem : Memory) (freebsd_cmsg linux_cmsg : ℕ) : Prop :=
  HeadersFit b freebsd_cmsg linux_cmsg ∧
    PayloadFits b freebsd_cmsg linux_cmsg (readLe mem (linux_cmsg + 8) 4)
      (readLe mem (linux_cmsg + 12) 4) (readLe mem linux_cmsg 8)

/-- The message is a type of service, a time to live, the address of an IPv6 packet. -/
def IsTos (m : Cmsg) : Prop := m.level = IPPROTO_IP ∧ m.type = LINUX_IP_TOS

def IsTtl (m : Cmsg) : Prop := m.level = IPPROTO_IP ∧ m.type = LINUX_IP_TTL

def IsPktinfo (m : Cmsg) : Prop := m.level = IPPROTO_IPV6 ∧ m.type = LINUX_IPV6_PKTINFO

instance (m : Cmsg) : Decidable (IsTos m) := by
  unfold IsTos
  infer_instance

instance (m : Cmsg) : Decidable (IsTtl m) := by
  unfold IsTtl
  infer_instance

instance (m : Cmsg) : Decidable (IsPktinfo m) := by
  unfold IsPktinfo
  infer_instance

/-- The data of the message is what Linux defines for its type: an `int` or a `char` for a type of
service, an `int` for a time to live, a `struct in6_pktinfo`. -/
def PayloadOk (m : Cmsg) : Prop :=
  (IsTos m → m.data.length = 1 ∨ m.data.length = 4) ∧ (IsTtl m → m.data.length = 4) ∧
    (IsPktinfo m → m.data.length = sizeofIn6Pktinfo)

instance (m : Cmsg) : Decidable (PayloadOk m) := by
  unfold PayloadOk
  infer_instance

/-- The message in the terms of FreeBSD. -/
def freebsdView (m : Cmsg) : Cmsg :=
  if IsTos m then { m with type := IP_TOS, data := leBytes 1 (ofLeBytes m.data) }
  else if IsTtl m then { m with type := IP_TTL, data := leBytes 1 (ofLeBytes m.data) }
  else if IsPktinfo m then { m with type := IPV6_PKTINFO }
  else m

section View

variable {m : Cmsg}

theorem freebsdView_len (m : Cmsg) :
    (freebsdView m).len = if IsTos m ∨ IsTtl m then 17 else m.len := by
  unfold freebsdView
  by_cases htos : IsTos m
  · simp [htos, Cmsg.len]
  · by_cases httl : IsTtl m
    · simp [htos, httl, Cmsg.len]
    · by_cases hpkt : IsPktinfo m
      · simp [htos, httl, hpkt, Cmsg.len]
      · simp [htos, httl, hpkt]

/-- The narrow form takes the same space. -/
theorem freebsdView_space (hok : PayloadOk m) :
    cmsgSpace (freebsdView m).len = cmsgSpace m.len := by
  rw [freebsdView_len]
  split
  · next hip =>
    have hlen : m.len = 17 ∨ m.len = 20 := by
      simp only [Cmsg.len]
      rcases hip with htos | httl
      · have hdata := hok.1 htos
        omega
      · have hdata := hok.2.1 httl
        omega
    rcases hlen with hlen | hlen
    · rw [hlen]
    · rw [hlen]
      rfl
  · rfl

theorem freebsdView_len_le (hok : PayloadOk m) : (freebsdView m).len ≤ m.len := by
  rw [freebsdView_len]
  split
  · next hip =>
    simp only [Cmsg.len]
    rcases hip with htos | httl
    · have hdata := hok.1 htos
      omega
    · have hdata := hok.2.1 httl
      omega
  · exact le_refl _

end View

section Accesses

variable {b : SendControl} {mem mem' : Memory} {freebsd_cmsg linux_cmsg : ℕ}

@[simp] theorem loadLe_every :
    (loadLe side mem addr n).Every P ↔ P ⟨side, false, addr, n⟩ := by
  simp [loadLe]

@[simp] theorem storeLe_every {v : ℕ} :
    (storeLe side mem addr n v).Every P ↔ P ⟨side, true, addr, n⟩ := by
  simp [storeLe]

@[simp] theorem copyData_every {side' : CmsgSide} {dst src : ℕ} :
    (copyData side side' mem dst src n).Every P ↔
      P ⟨side', false, src, n⟩ ∧ P ⟨side, true, dst, n⟩ := by
  simp [copyData]

@[simp] theorem inside_linux : Inside b ⟨.linux, false, addr, n⟩ ↔
    b.linux_msg.msg_control ≤ addr ∧ addr + n ≤ b.linux_msg.controlEnd := by
  simp [Inside]

@[simp] theorem inside_freebsd {store : Bool} :
    Inside b ⟨.freebsd, store, addr, n⟩ ↔ b.freebsd_cmsg ≤ addr ∧ addr + n ≤ b.allocEnd := Iff.rfl

/-- The assignments to the header touch the two headers. -/
theorem sendHeader_every : (linux2freebsdCmsgHeader mem freebsd_cmsg linux_cmsg).Every (Inside b) ↔
    HeadersFit b freebsd_cmsg linux_cmsg := by
  unfold linux2freebsdCmsgHeader HeadersFit
  simp only [Logged.every_bind, linuxCmsghdr_getType, linuxCmsghdr_getLevel, linuxCmsghdr_getLen,
    cmsghdr_setType, cmsghdr_setLevel, cmsghdr_setLen, loadLe_every, storeLe_every, inside_linux,
    inside_freebsd]
  omega

/-- The size copied is `cmsg_len - 16`, and does not wrap in a copy that fits. -/
theorem sendCopy_every (hfit : HeadersFit b freebsd_cmsg linux_cmsg) :
    (linux2freebsdCmsgCopy mem freebsd_cmsg linux_cmsg).Every (Inside b) ↔
      16 ≤ readLe mem linux_cmsg 8 ∧ DataFits b freebsd_cmsg linux_cmsg
        (readLe mem linux_cmsg 8 - 16) (readLe mem linux_cmsg 8 - 16) := by
  have hlt : readLe mem linux_cmsg 8 < 2 ^ 64 := readLe_lt mem linux_cmsg 8
  have huser : b.linux_msg.controlEnd ≤ userEnd := b.linux_msg.user
  have hsize : linuxCmsghdr.size = 16 := rfl
  unfold HeadersFit at hfit
  unfold linux2freebsdCmsgCopy
  simp only [Logged.every_bind, linuxCmsghdr_getLen, loadLe_every, loadLe_val, copyData_every,
    inside_linux, inside_freebsd, cmsghdr_cmsgData, linuxCmsghdr_cmsgData, hsize, sub64, DataFits]
  unfold userEnd at huser
  generalize readLe mem linux_cmsg 8 = len at hlt ⊢
  omega

/-- The data touched by the `switch`. -/
theorem sendSwitch_every (hfit : HeadersFit b freebsd_cmsg linux_cmsg) :
    (linux2freebsdCmsgSwitch mem freebsd_cmsg linux_cmsg).Every (Inside b) ↔
      PayloadFits b freebsd_cmsg linux_cmsg (readLe mem (linux_cmsg + 8) 4)
        (readLe mem (linux_cmsg + 12) 4) (readLe mem linux_cmsg 8) := by
  have hcopy := @sendCopy_every b mem freebsd_cmsg linux_cmsg hfit
  have hchar : cmsghdr.cmsgLen 1 = 17 := rfl
  have hint : linuxCmsghdr.cmsgLen 4 = 20 := rfl
  have hchar' : linuxCmsghdr.cmsgLen 1 = 17 := rfl
  have hfresh := b.fresh
  unfold HeadersFit Msghdr.controlEnd SendControl.allocEnd at hfit
  unfold Msghdr.controlEnd at hfresh
  -- the new header is not in the buffer that the length is read from again
  have hlen : ∀ v, readLe (writeLe (writeLe mem (freebsd_cmsg + 8) 4 v) freebsd_cmsg 4 17)
      linux_cmsg 8 = readLe mem linux_cmsg 8 := by
    intro v
    rw [readLe_writeLe_of_disjoint (by omega), readLe_writeLe_of_disjoint (by omega)]
  unfold linux2freebsdCmsgSwitch PayloadFits
  simp only [Logged.every_bind, linuxCmsghdr_getLevel, linuxCmsghdr_getType, loadLe_every,
    loadLe_val, inside_linux, Msghdr.controlEnd]
  by_cases hip : readLe mem (linux_cmsg + 8) 4 = IPPROTO_IP
  · have hne6 : ¬ IPPROTO_IP = IPPROTO_IPV6 := by decide
    simp only [hip, if_true, true_and, hne6, false_and, if_false, Logged.every_bind, loadLe_every,
      loadLe_val, inside_linux, Msghdr.controlEnd]
    rw [and_iff_right (by omega), and_iff_right (by omega)]
    by_cases htos : readLe mem (linux_cmsg + 12) 4 = LINUX_IP_TOS
    · simp only [htos, if_true, Logged.every_bind, cmsghdr_setType, cmsghdr_setLen, loadLe_every,
        storeLe_every, storeLe_val, loadLe_val, linuxCmsghdr_getLen, inside_linux, inside_freebsd,
        linuxCmsghdr_cmsgData, cmsghdr_cmsgData, hchar, hint, hchar', hlen]
      by_cases h20 : readLe mem linux_cmsg 8 = 20
      · have hne : ¬ (20 : ℕ) = 17 := by decide
        simp only [h20, hne, if_true, Logged.every_bind, loadLe_every, storeLe_every, inside_linux,
          inside_freebsd, DataFits, Msghdr.controlEnd, SendControl.allocEnd, true_imp_iff,
          false_imp_iff, and_true]
        omega
      · by_cases h17 : readLe mem linux_cmsg 8 = 17
        · have hne : ¬ (17 : ℕ) = 20 := by decide
          simp only [h17, hne, if_true, if_false, Logged.every_bind, loadLe_every, storeLe_every,
            inside_linux, inside_freebsd, DataFits, Msghdr.controlEnd, SendControl.allocEnd,
            true_imp_iff, false_imp_iff, true_and]
          omega
        · simp only [h20, h17, if_false, Logged.every_pure, Msghdr.controlEnd, SendControl.allocEnd,
            false_imp_iff, and_true, iff_true]
          omega
    · by_cases httl : readLe mem (linux_cmsg + 12) 4 = LINUX_IP_TTL
      · have hne : ¬ LINUX_IP_TTL = LINUX_IP_TOS := by decide
        simp only [httl, hne, if_true, if_false, Logged.every_bind, cmsghdr_setType, cmsghdr_setLen,
          loadLe_every, storeLe_every, inside_linux, inside_freebsd, linuxCmsghdr_cmsgData,
          cmsghdr_cmsgData, DataFits, Msghdr.controlEnd, SendControl.allocEnd]
        omega
      · simp only [htos, httl, if_false, hcopy]
  · simp only [hip, if_false, false_and]
    by_cases hip6 : readLe mem (linux_cmsg + 8) 4 = IPPROTO_IPV6
    · simp only [hip6, if_true, true_and, Logged.every_bind, loadLe_every, loadLe_val, inside_linux,
        Msghdr.controlEnd]
      rw [and_iff_right (by omega), and_iff_right (by omega)]
      by_cases hpkt : readLe mem (linux_cmsg + 12) 4 = LINUX_IPV6_PKTINFO
      · simp only [hpkt, if_true, Logged.every_bind, cmsghdr_setType, storeLe_every, copyData_every,
          inside_linux, inside_freebsd, linuxCmsghdr_cmsgData, cmsghdr_cmsgData, sizeofIn6Pktinfo,
          DataFits, Msghdr.controlEnd, SendControl.allocEnd]
        omega
      · simp only [hpkt, if_false, hcopy]
    · simp only [hip6, if_false, false_and, hcopy]
      rw [and_iff_right (by omega)]

/-- `NXTHDR` reads the length. -/
theorem nxthdr_every {h : CmsgLayout} {mhdr : Msghdr} {cmsg : ℕ}
    (hread : P ⟨h.side, false, cmsg, h.lenSize⟩) : (h.nxthdr mhdr mem cmsg).Every P := by
  unfold CmsgLayout.nxthdr CmsgLayout.getLen
  rw [Logged.every_bind, loadLe_every]
  refine ⟨hread, ?_⟩
  by_cases hend : (cmsg + align (loadLe h.side mem cmsg h.lenSize).val + align h.size) % 2 ^ 64 >
      mhdr.msg_control + mhdr.msg_controllen
  · rw [if_pos hend]
    exact Logged.every_pure _
  · rw [if_neg hend, Logged.every_bind, loadLe_every]
    exact ⟨hread, Logged.every_pure _⟩

/-- The assignments to the new header leave the buffer of the caller as it is. -/
theorem sendHeader_linux (hfit : HeadersFit b freebsd_cmsg linux_cmsg) {a : ℕ}
    (hlow : b.linux_msg.msg_control ≤ a) (hhigh : a < b.linux_msg.controlEnd) :
    (linux2freebsdCmsgHeader mem freebsd_cmsg linux_cmsg).val a = mem a := by
  have hfresh := b.fresh
  unfold HeadersFit SendControl.allocEnd at hfit
  unfold linux2freebsdCmsgHeader
  simp only [Logged.val_bind, cmsghdr_setType, cmsghdr_setLevel, cmsghdr_setLen, storeLe_val]
  rw [writeLe_of_outside (by omega), writeLe_of_outside (by omega), writeLe_of_outside (by omega)]

/-- A field of the Linux header is read as it was. -/
theorem sendHeader_field (hfit : HeadersFit b freebsd_cmsg linux_cmsg) (hlow : linux_cmsg ≤ addr)
    (hhigh : addr + n ≤ linux_cmsg + 16) :
    readLe (linux2freebsdCmsgHeader mem freebsd_cmsg linux_cmsg).val addr n =
      readLe mem addr n := by
  refine readLe_congr fun i hlo hhi => ?_
  have hhdr := hfit
  unfold HeadersFit at hhdr
  exact sendHeader_linux hfit (by omega) (by omega)

/-- A round stays in the two buffers exactly if the message fits. -/
theorem sendRound_every : (cmsgAdvance linux2freebsdCmsgBody b.linux_msg b.freebsd_msg mem
      freebsd_cmsg linux_cmsg).Every (Inside b) ↔ MessageFits b mem freebsd_cmsg linux_cmsg := by
  unfold cmsgAdvance linux2freebsdCmsgBody MessageFits
  simp only [Logged.every_bind, Logged.every_pure, and_true, sendHeader_every]
  constructor
  · rintro ⟨⟨hfit, hswitch⟩, -⟩
    have hpayload := (sendSwitch_every hfit).mp hswitch
    rw [sendHeader_field hfit (by omega) (by omega), sendHeader_field hfit (by omega) (by omega),
      sendHeader_field hfit (by omega) (by omega)] at hpayload
    exact ⟨hfit, hpayload⟩
  · rintro ⟨hfit, hpayload⟩
    refine ⟨⟨hfit, (sendSwitch_every hfit).mpr ?_⟩, nxthdr_every ?_, nxthdr_every ?_⟩
    · rw [sendHeader_field hfit (by omega) (by omega), sendHeader_field hfit (by omega) (by omega),
        sendHeader_field hfit (by omega) (by omega)]
      exact hpayload
    · obtain ⟨hlow, hhigh, -⟩ := hfit
      exact inside_linux.mpr ⟨hlow, (Nat.add_le_add_left linuxCmsghdr_padded.lenSize _).trans hhigh⟩
    · obtain ⟨-, -, hlow, hhigh⟩ := hfit
      have hsize : cmsghdr.lenSize = 4 := rfl
      exact inside_freebsd.mpr ⟨hlow, by omega⟩

end Accesses

section Copy

variable {b : SendControl} {mem : Memory} {freebsd_cmsg linux_cmsg : ℕ} {m : Cmsg}

/-- The message and its copy stand at the same offset, and the message is whole. -/
structure Lockstep (b : SendControl) (freebsd_cmsg linux_cmsg len : ℕ) : Prop where
  low : b.linux_msg.msg_control ≤ linux_cmsg
  same : freebsd_cmsg + b.linux_msg.msg_control = linux_cmsg + b.freebsd_cmsg
  whole : linux_cmsg + len ≤ b.linux_msg.controlEnd

theorem Lockstep.headersFit (h : Lockstep b freebsd_cmsg linux_cmsg m.len) :
    HeadersFit b freebsd_cmsg linux_cmsg := by
  obtain ⟨hlow, hsame, hwhole⟩ := h
  simp only [Cmsg.len, Msghdr.controlEnd] at hwhole
  simp only [HeadersFit, SendControl.allocEnd, Msghdr.controlEnd]
  omega

/-- The bytes of the message and of its copy are different bytes. -/
theorem Lockstep.disjoint {len : ℕ} (h : Lockstep b freebsd_cmsg linux_cmsg len) :
    freebsd_cmsg + len ≤ linux_cmsg ∨ linux_cmsg + len ≤ freebsd_cmsg := by
  obtain ⟨hlow, hsame, hwhole⟩ := h
  have hfresh := b.fresh
  unfold Msghdr.controlEnd at hfresh hwhole
  omega

/-- The header that the assignments before the `switch` leave. -/
theorem sendHeader_val (hat : linuxCmsghdr.At mem linux_cmsg m)
    (hlock : Lockstep b freebsd_cmsg linux_cmsg m.len) :
    (linux2freebsdCmsgHeader mem freebsd_cmsg linux_cmsg).val =
      writeLe (writeLe (writeLe mem (freebsd_cmsg + 8) 4 m.type) (freebsd_cmsg + 4) 4 m.level)
        freebsd_cmsg 4 m.len := by
  obtain ⟨hlen, hlevel, htype, -⟩ := at_linuxCmsghdr_iff.mp hat
  have hlow : 16 ≤ m.len := by simp [Cmsg.len]
  have hlt : m.len < 2 ^ 64 := by
    rw [← hlen]
    exact readLe_lt mem linux_cmsg 8
  have hsize : cmsghdr.cmsgLen (sub64 m.len (align linuxCmsghdr.size)) = m.len := by
    rw [CmsgLayout.cmsgLen, linuxCmsghdr_padded.size, cmsghdr_padded.size, sub64]
    omega
  have hdisj := hlock.disjoint
  unfold linux2freebsdCmsgHeader
  simp only [Logged.val_bind, linuxCmsghdr_getType, linuxCmsghdr_getLevel, linuxCmsghdr_getLen,
    cmsghdr_setType, cmsghdr_setLevel, cmsghdr_setLen, loadLe_val, storeLe_val]
  rw [htype, readLe_writeLe_of_disjoint (q := linux_cmsg + 8) (by omega), hlevel,
    readLe_writeLe_of_disjoint (q := linux_cmsg) (by omega),
    readLe_writeLe_of_disjoint (q := linux_cmsg) (by omega), hlen, hsize]

/-- What each branch of the `switch` stores. -/
theorem sendSwitch_val (hat : linuxCmsghdr.At mem linux_cmsg m) (hok : PayloadOk m)
    (hlock : Lockstep b freebsd_cmsg linux_cmsg m.len) :
    (linux2freebsdCmsgSwitch mem freebsd_cmsg linux_cmsg).val =
      if IsTos m then
        writeLe (writeLe (writeLe mem (freebsd_cmsg + 8) 4 IP_TOS) freebsd_cmsg 4 17)
          (freebsd_cmsg + 16) 1 (ofLeBytes m.data)
      else if IsTtl m then
        writeLe (writeLe (writeLe mem (freebsd_cmsg + 8) 4 IP_TTL) freebsd_cmsg 4 17)
          (freebsd_cmsg + 16) 1 (ofLeBytes m.data)
      else if IsPktinfo m then
        writeAt (writeLe mem (freebsd_cmsg + 8) 4 IPV6_PKTINFO) (freebsd_cmsg + 16) m.data
      else writeAt mem (freebsd_cmsg + 16) m.data := by
  obtain ⟨hlen, hlevel, htype, hdata⟩ := at_linuxCmsghdr_iff.mp hat
  have hdisj := hlock.disjoint
  have hlt : m.len < 2 ^ 64 := by
    rw [← hlen]
    exact readLe_lt mem linux_cmsg 8
  have hmlen : m.len = 16 + m.data.length := rfl
  have hchar : cmsghdr.cmsgLen 1 = 17 := rfl
  have hint : linuxCmsghdr.cmsgLen 4 = 20 := rfl
  have hchar' : linuxCmsghdr.cmsgLen 1 = 17 := rfl
  have hcopy : (linux2freebsdCmsgCopy mem freebsd_cmsg linux_cmsg).val =
      writeAt mem (freebsd_cmsg + 16) m.data := by
    have hsize : sub64 m.len linuxCmsghdr.size = m.data.length := by
      have h16 : linuxCmsghdr.size = 16 := rfl
      rw [h16, sub64]
      omega
    unfold linux2freebsdCmsgCopy
    simp only [Logged.val_bind, linuxCmsghdr_getLen, loadLe_val, copyData_val, cmsghdr_cmsgData,
      linuxCmsghdr_cmsgData, hlen, hsize, hdata]
  have hlen' : ∀ v w, readLe (writeLe (writeLe mem (freebsd_cmsg + 8) 4 v) freebsd_cmsg 4 w)
      linux_cmsg 8 = m.len := by
    intro v w
    rw [readLe_writeLe_of_disjoint (by omega), readLe_writeLe_of_disjoint (by omega), hlen]
  have hopt : ∀ v w n, m.data.length = n →
      readLe (writeLe (writeLe mem (freebsd_cmsg + 8) 4 v) freebsd_cmsg 4 w) (linux_cmsg + 16) n =
        ofLeBytes m.data := by
    rintro v w n rfl
    rw [readLe_writeLe_of_disjoint (by omega), readLe_writeLe_of_disjoint (by omega), readLe, hdata]
  unfold linux2freebsdCmsgSwitch IsTos IsTtl IsPktinfo
  simp only [Logged.val_bind, linuxCmsghdr_getLevel, linuxCmsghdr_getType, loadLe_val, hlevel]
  by_cases hip : m.level = IPPROTO_IP
  · have hne6 : ¬ IPPROTO_IP = IPPROTO_IPV6 := by decide
    simp only [hip, if_true, true_and, hne6, false_and, if_false, Logged.val_bind, loadLe_val, htype]
    by_cases htos : m.type = LINUX_IP_TOS
    · simp only [htos, if_true, Logged.val_bind, cmsghdr_setType, cmsghdr_setLen, storeLe_val,
        loadLe_val, linuxCmsghdr_getLen, linuxCmsghdr_cmsgData, cmsghdr_cmsgData, hchar, hint, hchar',
        hlen']
      rcases hok.1 ⟨hip, htos⟩ with h1 | h4
      · have h17 : m.len = 17 := by omega
        have hne : ¬ (17 : ℕ) = 20 := by decide
        simp only [h17, hne, if_true, if_false, Logged.val_bind, storeLe_val, loadLe_val,
          hopt _ _ _ h1]
      · have h20 : m.len = 20 := by omega
        simp only [h20, if_true, Logged.val_bind, storeLe_val, loadLe_val, hopt _ _ _ h4]
    · by_cases httl : m.type = LINUX_IP_TTL
      · have hne : ¬ LINUX_IP_TTL = LINUX_IP_TOS := by decide
        have h4 := hok.2.1 ⟨hip, httl⟩
        simp only [httl, hne, if_true, if_false, Logged.val_bind, cmsghdr_setType, cmsghdr_setLen,
          storeLe_val, loadLe_val, linuxCmsghdr_cmsgData, cmsghdr_cmsgData, hchar, hopt _ _ _ h4]
      · simp only [htos, httl, if_false, hcopy]
  · simp only [hip, if_false, false_and]
    by_cases hip6 : m.level = IPPROTO_IPV6
    · simp only [hip6, if_true, true_and, Logged.val_bind, loadLe_val, htype]
      by_cases hpkt : m.type = LINUX_IPV6_PKTINFO
      · have h20 := hok.2.2 ⟨hip6, hpkt⟩
        simp only [hpkt, if_true, Logged.val_bind, cmsghdr_setType, storeLe_val, copyData_val,
          linuxCmsghdr_cmsgData, cmsghdr_cmsgData]
        rw [readAt_writeLe_of_disjoint (by omega), ← h20, hdata]
      · simp only [hpkt, if_false, hcopy]
    · simp only [hip6, if_false, false_and, hcopy]

/-- The fields of the new header are those of the message, its length in 32 bits. -/
theorem sendHeader_fields (hat : linuxCmsghdr.At mem linux_cmsg m)
    (hlock : Lockstep b freebsd_cmsg linux_cmsg m.len) {mem' : Memory}
    (hmem : mem' = (linux2freebsdCmsgHeader mem freebsd_cmsg linux_cmsg).val) :
    readLe mem' freebsd_cmsg 4 = m.len % 2 ^ 32 ∧ readLe mem' (freebsd_cmsg + 4) 4 = m.level ∧
      readLe mem' (freebsd_cmsg + 8) 4 = m.type ∧
      ∀ a, a < freebsd_cmsg ∨ freebsd_cmsg + 12 ≤ a → mem' a = mem a := by
  obtain ⟨-, hlevel, htype, -⟩ := at_linuxCmsghdr_iff.mp hat
  have hlt : m.level < 256 ^ 4 := by
    rw [← hlevel]
    exact readLe_lt mem _ 4
  have hlt' : m.type < 256 ^ 4 := by
    rw [← htype]
    exact readLe_lt mem _ 4
  rw [hmem, sendHeader_val hat hlock]
  refine ⟨?_, ?_, ?_, ?_⟩
  · rw [readLe_writeLe_self]
    rfl
  · rw [readLe_writeLe_of_disjoint (by omega), readLe_writeLe_self, Nat.mod_eq_of_lt hlt]
  · rw [readLe_writeLe_of_disjoint (by omega), readLe_writeLe_of_disjoint (by omega),
      readLe_writeLe_self, Nat.mod_eq_of_lt hlt']
  · intro a ha
    rw [writeLe_of_outside (by omega), writeLe_of_outside (by omega), writeLe_of_outside (by omega)]

/-- A message of one byte, with the type `type`. -/
theorem narrow_at {level type v : ℕ} (hlevel : readLe mem (freebsd_cmsg + 4) 4 = level)
    (htype : type < 2 ^ 32) :
    cmsghdr.At (writeLe (writeLe (writeLe mem (freebsd_cmsg + 8) 4 type) freebsd_cmsg 4 17)
        (freebsd_cmsg + 16) 1 v) freebsd_cmsg ⟨level, type, leBytes 1 v⟩ ∧
      ∀ a, a < freebsd_cmsg ∨ freebsd_cmsg + 17 ≤ a →
        writeLe (writeLe (writeLe mem (freebsd_cmsg + 8) 4 type) freebsd_cmsg 4 17)
          (freebsd_cmsg + 16) 1 v a = mem a := by
  rw [at_cmsghdr_iff]
  refine ⟨⟨?_, ?_, ?_, ?_⟩, fun a ha => ?_⟩
  · rw [readLe_writeLe_of_disjoint (by omega), readLe_writeLe_self]
    simp [Cmsg.len]
  · rw [readLe_writeLe_of_disjoint (by omega), readLe_writeLe_of_disjoint (by omega),
      readLe_writeLe_of_disjoint (by omega), hlevel]
  · rw [readLe_writeLe_of_disjoint (by omega), readLe_writeLe_of_disjoint (by omega),
      readLe_writeLe_self]
    exact Nat.mod_eq_of_lt htype
  · simp only [length_leBytes, readAt_writeLe_self]
  · rw [writeLe_of_outside (by omega), writeLe_of_outside (by omega), writeLe_of_outside (by omega)]

/-- One round puts the message in FreeBSD terms into the new buffer, and changes no other byte. -/
theorem sendBody_at (hat : linuxCmsghdr.At mem linux_cmsg m) (hok : PayloadOk m)
    (hlock : Lockstep b freebsd_cmsg linux_cmsg m.len) (hlen : m.len < 2 ^ 32) :
    cmsghdr.At (linux2freebsdCmsgBody mem freebsd_cmsg linux_cmsg).val freebsd_cmsg
        (freebsdView m) ∧
      ∀ a, a < freebsd_cmsg ∨ freebsd_cmsg + m.len ≤ a →
        (linux2freebsdCmsgBody mem freebsd_cmsg linux_cmsg).val a = mem a := by
  have hdisj := hlock.disjoint
  have hmlen : m.len = 16 + m.data.length := rfl
  unfold linux2freebsdCmsgBody
  rw [Logged.val_bind]
  generalize hmem : (linux2freebsdCmsgHeader mem freebsd_cmsg linux_cmsg).val = mem'
  obtain ⟨hnlen, hnlevel, hntype, hsame⟩ := sendHeader_fields hat hlock hmem.symm
  have hat' : linuxCmsghdr.At mem' linux_cmsg m :=
    at_congr linuxCmsghdr_padded (fun i hlo hhi => hsame i (by omega)) hat
  rw [Nat.mod_eq_of_lt hlen] at hnlen
  rw [sendSwitch_val hat' hok hlock, at_cmsghdr_iff]
  have hview := freebsdView_len_le hok
  have hview' := freebsdView_len m
  unfold freebsdView at hview hview' ⊢
  by_cases htos : IsTos m
  · rw [if_pos htos] at hview hview'
    rw [if_pos (.inl htos)] at hview'
    rw [if_pos htos, if_pos htos]
    obtain ⟨hnarrow, hframe⟩ := narrow_at (v := ofLeBytes m.data) hnlevel
      (show IP_TOS < 2 ^ 32 by decide)
    refine ⟨at_cmsghdr_iff.mp hnarrow, fun a ha => ?_⟩
    rw [hframe a (by omega), hsame a (by omega)]
  · by_cases httl : IsTtl m
    · rw [if_neg htos, if_pos httl] at hview hview'
      rw [if_pos (.inr httl)] at hview'
      rw [if_neg htos, if_neg htos, if_pos httl, if_pos httl]
      obtain ⟨hnarrow, hframe⟩ := narrow_at (v := ofLeBytes m.data) hnlevel
        (show IP_TTL < 2 ^ 32 by decide)
      refine ⟨at_cmsghdr_iff.mp hnarrow, fun a ha => ?_⟩
      rw [hframe a (by omega), hsame a (by omega)]
    · rw [if_neg htos, if_neg htos, if_neg httl, if_neg httl]
      by_cases hpkt : IsPktinfo m
      · rw [if_pos hpkt, if_pos hpkt]
        refine ⟨⟨?_, ?_, ?_, ?_⟩, fun a ha => ?_⟩
        · rw [readLe, readAt_writeAt_of_disjoint (by omega), ← readLe,
            readLe_writeLe_of_disjoint (by omega), hnlen]
          rfl
        · rw [readLe, readAt_writeAt_of_disjoint (by omega), ← readLe,
            readLe_writeLe_of_disjoint (by omega), hnlevel]
        · rw [readLe, readAt_writeAt_of_disjoint (by omega), ← readLe, readLe_writeLe_self]
          rfl
        · exact readAt_writeAt_self _ _ _
        · rw [writeAt_of_outside (by omega), writeLe_of_outside (by omega), hsame a (by omega)]
      · rw [if_neg hpkt, if_neg hpkt]
        refine ⟨⟨?_, ?_, ?_, ?_⟩, fun a ha => ?_⟩
        · rw [readLe, readAt_writeAt_of_disjoint (by omega), ← readLe, hnlen]
        · rw [readLe, readAt_writeAt_of_disjoint (by omega), ← readLe, hnlevel]
        · rw [readLe, readAt_writeAt_of_disjoint (by omega), ← readLe, hntype]
        · exact readAt_writeAt_self _ _ _
        · rw [writeAt_of_outside (by omega), hsame a (by omega)]

/-- A well-formed message fits. -/
theorem messageFits_of_at (hat : linuxCmsghdr.At mem linux_cmsg m) (hok : PayloadOk m)
    (hlock : Lockstep b freebsd_cmsg linux_cmsg m.len) :
    MessageFits b mem freebsd_cmsg linux_cmsg := by
  obtain ⟨hlen, hlevel, htype, -⟩ := at_linuxCmsghdr_iff.mp hat
  refine ⟨hlock.headersFit, ?_⟩
  rw [hlen, hlevel, htype]
  have hdata : ∀ read written, read ≤ m.data.length → written ≤ m.data.length →
      DataFits b freebsd_cmsg linux_cmsg read written := by
    intro read written hread hwritten
    obtain ⟨hlow, hsame, hwhole⟩ := hlock
    simp only [Cmsg.len, Msghdr.controlEnd] at hwhole
    simp only [DataFits, Msghdr.controlEnd, SendControl.allocEnd]
    omega
  have hmlen : m.len = 16 + m.data.length := rfl
  unfold PayloadFits
  split
  · exact ⟨fun h => hdata 4 1 (by omega) (by omega), fun h => hdata 1 1 (by omega) (by omega)⟩
  · split
    · next httl =>
      have h4 := hok.2.1 httl
      exact hdata 4 1 (by omega) (by omega)
    · split
      · next hpkt =>
        have h20 := hok.2.2 hpkt
        exact hdata 20 20 h20.ge h20.ge
      · exact ⟨by omega, hdata _ _ (by omega) (by omega)⟩

end Copy

/-- Both pointers are null, or stand at the same offset of their buffers. -/
def Paired (b : SendControl) : Option ℕ → Option ℕ → Prop
  | none, none => True
  | some freebsd_cmsg, some linux_cmsg => b.linux_msg.msg_control ≤ linux_cmsg ∧
      freebsd_cmsg + b.linux_msg.msg_control = linux_cmsg + b.freebsd_cmsg
  | _, _ => False

section Run

variable {b : SendControl} {mem : Memory} {m : Cmsg} {ms : List Cmsg} {s : CmsgLoop}
  {freebsd_cmsg linux_cmsg : ℕ}

theorem freebsd_msg_controlEnd (hsize : b.linux_msg.msg_controllen < 2 ^ 32) :
    b.freebsd_msg.controlEnd = b.allocEnd := by
  simp only [Msghdr.controlEnd, SendControl.freebsd_msg, SendControl.allocEnd,
    Nat.mod_eq_of_lt hsize]

/-- Behind messages at one offset both walks go on at one offset. -/
theorem paired_nextCmsg {len : ℕ} (hsize : b.linux_msg.msg_controllen < 2 ^ 32)
    (hpair : Paired b (some freebsd_cmsg) (some linux_cmsg)) :
    Paired b (nextCmsg b.freebsd_msg freebsd_cmsg len) (nextCmsg b.linux_msg linux_cmsg len) := by
  obtain ⟨hlow, hsame⟩ := hpair
  have hend := freebsd_msg_controlEnd hsize
  unfold SendControl.allocEnd at hend
  have hlend : b.linux_msg.controlEnd = b.linux_msg.msg_control + b.linux_msg.msg_controllen := rfl
  unfold nextCmsg
  by_cases hover : linux_cmsg + cmsgSpace len + 16 > b.linux_msg.controlEnd
  · rw [if_pos hover, if_pos (by omega)]
    trivial
  · rw [if_neg hover, if_neg (by omega)]
    exact ⟨by omega, by omega⟩

/-- One round at a message of a well-formed list. -/
theorem sendRound_walk (hfreebsd : s.freebsd_cmsg = some freebsd_cmsg)
    (hlinux : s.linux_cmsg = some linux_cmsg)
    (hwalk : linuxCmsghdr.Walk b.linux_msg s.mem (some linux_cmsg) (m :: ms)) (hok : PayloadOk m)
    (hpair : Paired b (some freebsd_cmsg) (some linux_cmsg))
    (hsize : b.linux_msg.msg_controllen < 2 ^ 32) :
    ∃ s', linux2freebsdCmsg b.linux_msg b.freebsd_msg s = .call s' ∧
      linuxCmsghdr.Walk b.linux_msg s'.mem s'.linux_cmsg ms ∧
      s'.freebsd_cmsg = nextCmsg b.freebsd_msg freebsd_cmsg m.len ∧
      Paired b s'.freebsd_cmsg s'.linux_cmsg ∧ cmsghdr.At s'.mem freebsd_cmsg (freebsdView m) ∧
      freebsd_cmsg + m.len ≤ b.freebsd_msg.controlEnd ∧
      ∀ a, a < freebsd_cmsg ∨ freebsd_cmsg + m.len ≤ a → s'.mem a = s.mem a := by
  obtain ⟨hat, hwhole, hrest⟩ := hwalk
  have hlock : Lockstep b freebsd_cmsg linux_cmsg m.len := ⟨hpair.1, hpair.2, hwhole⟩
  have hend := freebsd_msg_controlEnd hsize
  have hlend : b.linux_msg.controlEnd = b.linux_msg.msg_control + b.linux_msg.msg_controllen := rfl
  have hlow := hpair.1
  have hsame' := hpair.2
  have hlen : m.len < 2 ^ 32 := by omega
  obtain ⟨hat', hsame⟩ := sendBody_at hat hok hlock hlen
  have hround := cmsgRound_call linux2freebsdCmsgBody b.linux_msg b.freebsd_msg hfreebsd hlinux
  generalize s.log ++ (cmsgAdvance linux2freebsdCmsgBody b.linux_msg b.freebsd_msg s.mem
    freebsd_cmsg linux_cmsg).log = log at hround
  generalize (linux2freebsdCmsgBody s.mem freebsd_cmsg linux_cmsg).val = mem' at hat' hsame hround
  have hfend : freebsd_cmsg + m.len ≤ b.freebsd_msg.controlEnd := by
    rw [hend]
    unfold SendControl.allocEnd
    omega
  -- the buffer of the caller is not written
  have hlinux' : ∀ i, b.linux_msg.msg_control ≤ i → i < b.linux_msg.controlEnd →
      mem' i = s.mem i := by
    intro i hlo hhi
    have hfresh := b.fresh
    exact hsame i (by omega)
  have hlat : linuxCmsghdr.At mem' linux_cmsg m :=
    at_congr linuxCmsghdr_padded (fun i hlo hhi => hlinux' i (by omega) (by omega)) hat
  have hnext := nxthdr_of_len linuxCmsghdr_padded hlat.1 hwhole
  have hnext' := nxthdr_of_len cmsghdr_padded hat'.1
    ((Nat.add_le_add_left (freebsdView_len_le hok) _).trans hfend)
  have hview : nextCmsg b.freebsd_msg freebsd_cmsg (freebsdView m).len =
      nextCmsg b.freebsd_msg freebsd_cmsg m.len := by
    simp only [nextCmsg, freebsdView_space hok]
  rw [nxthdr_of_len linuxCmsghdr_padded hat.1 hwhole] at hrest
  rw [hnext, hnext', hview] at hround
  refine ⟨_, hround, ?_, rfl, paired_nextCmsg hsize hpair, hat', hfend, hsame⟩
  refine walk_congr linuxCmsghdr_padded hlinux' (fun next hsome => ?_) hrest
  have hle := (le_of_nextCmsg hsome).1
  omega

/-- The loop from a message of a well-formed list on.  The induction is on the list. -/
theorem sendLoop_copies (hwalk : linuxCmsghdr.Walk b.linux_msg s.mem s.linux_cmsg ms)
    (hok : ∀ m ∈ ms, PayloadOk m) (hpair : Paired b s.freebsd_cmsg s.linux_cmsg)
    (hsize : b.linux_msg.msg_controllen < 2 ^ 32) :
    ∃ n s', TailCall.eval (linux2freebsdCmsg b.linux_msg b.freebsd_msg) n s = some s' ∧
      cmsghdr.Walk b.freebsd_msg s'.mem s.freebsd_cmsg (ms.map freebsdView) ∧
      ∀ a, (∀ cmsg, s.freebsd_cmsg = some cmsg → a < cmsg) → s'.mem a = s.mem a := by
  induction ms generalizing s with
  | nil =>
    cases hlinux : s.linux_cmsg with
    | some _ =>
      rw [hlinux] at hwalk
      exact hwalk.elim
    | none =>
      cases hfreebsd : s.freebsd_cmsg with
      | some _ =>
        rw [hfreebsd, hlinux] at hpair
        exact hpair.elim
      | none =>
        refine ⟨1, s, ?_, trivial, fun _ _ => rfl⟩
        rw [TailCall.eval, linux2freebsdCmsg, cmsgRound_ret (.inl hfreebsd)]
  | cons m ms ih =>
    cases hlinux : s.linux_cmsg with
    | none =>
      rw [hlinux] at hwalk
      exact hwalk.elim
    | some linux_cmsg =>
      cases hfreebsd : s.freebsd_cmsg with
      | none =>
        rw [hfreebsd, hlinux] at hpair
        exact hpair.elim
      | some freebsd_cmsg =>
        rw [hfreebsd, hlinux] at hpair
        rw [hlinux] at hwalk
        have hm := hok m (List.mem_cons_self ..)
        obtain ⟨s₁, hround, hrest, hnext, hpair', hat, hend, hsame⟩ :=
          sendRound_walk hfreebsd hlinux hwalk hm hpair hsize
        obtain ⟨n, s', heval, hwalk', hframe⟩ :=
          ih hrest (fun m' hm' => hok m' (List.mem_cons_of_mem _ hm')) hpair'
        have hview := freebsdView_len_le hm
        -- what the rest of the loop writes is behind this message
        have hbehind : ∀ a, a < freebsd_cmsg + m.len → s'.mem a = s₁.mem a := by
          intro a ha
          refine hframe a fun next hsome => ?_
          rw [hnext] at hsome
          have hle := (le_of_nextCmsg hsome).1
          have hspace := le_cmsgSpace m.len
          omega
        have hat' : cmsghdr.At s'.mem freebsd_cmsg (freebsdView m) :=
          at_congr cmsghdr_padded (fun i _ hhi => hbehind i (by omega)) hat
        have hend' : freebsd_cmsg + (freebsdView m).len ≤ b.freebsd_msg.controlEnd := by omega
        refine ⟨n + 1, s', ?_, ⟨hat', hend', ?_⟩, ?_⟩
        · rw [TailCall.eval, hround]
          exact heval
        · rw [nxthdr_of_len cmsghdr_padded hat'.1 hend', nextCmsg, freebsdView_space hm, ← nextCmsg,
            ← hnext]
          exact hwalk'
        · intro a ha
          have hlt := ha freebsd_cmsg rfl
          rw [hbehind a (by omega), hsame a (.inl hlt)]

/-- At a well-formed list every message that the loop comes to fits. -/
theorem messageFits_of_walk {s' : CmsgLoop}
    (hwalk : linuxCmsghdr.Walk b.linux_msg s.mem s.linux_cmsg ms)
    (hok : ∀ m ∈ ms, PayloadOk m) (hpair : Paired b s.freebsd_cmsg s.linux_cmsg)
    (hsize : b.linux_msg.msg_controllen < 2 ^ 32)
    (hreach : TailCall.Reaches (linux2freebsdCmsg b.linux_msg b.freebsd_msg) s s')
    (hfreebsd : s'.freebsd_cmsg = some freebsd_cmsg) (hlinux : s'.linux_cmsg = some linux_cmsg) :
    MessageFits b s'.mem freebsd_cmsg linux_cmsg := by
  induction ms generalizing s with
  | nil =>
    rcases Relation.ReflTransGen.cases_head hreach with rfl | ⟨s₁, hcall, -⟩
    · rw [hlinux] at hwalk
      exact hwalk.elim
    · have hnull : s.linux_cmsg = none := by
        cases hl : s.linux_cmsg with
        | none => rfl
        | some _ =>
          rw [hl] at hwalk
          exact hwalk.elim
      have hret : linux2freebsdCmsg b.linux_msg b.freebsd_msg s = .call s₁ := hcall
      rw [linux2freebsdCmsg, cmsgRound_ret (.inr hnull)] at hret
      cases hret
  | cons m ms ih =>
    cases hl : s.linux_cmsg with
    | none =>
      rw [hl] at hwalk
      exact hwalk.elim
    | some l =>
      cases hf : s.freebsd_cmsg with
      | none =>
        rw [hf, hl] at hpair
        exact hpair.elim
      | some f =>
        rw [hf, hl] at hpair
        rw [hl] at hwalk
        have hm := hok m (List.mem_cons_self ..)
        rcases Relation.ReflTransGen.cases_head hreach with rfl | ⟨s₁, hcall, hreach'⟩
        · rw [hfreebsd] at hf
          rw [hlinux] at hl
          cases hf
          cases hl
          exact messageFits_of_at hwalk.1 hm ⟨hpair.1, hpair.2, hwalk.2.1⟩
        · obtain ⟨s₂, hround, hrest, -, hpair', -⟩ := sendRound_walk hf hl hwalk hm hpair hsize
          have heq : s₂ = s₁ := by
            have hcall' : linux2freebsdCmsg b.linux_msg b.freebsd_msg s = .call s₁ := hcall
            rw [hround] at hcall'
            exact Outcome.call.inj hcall'
          rw [heq] at hrest hpair'
          exact ih hrest (fun m' hm' => hok m' (List.mem_cons_of_mem _ hm')) hpair' hreach'

/-- Where both walks end, the second buffer is almost as large as the first. -/
theorem controlEnd_lt_of_walks {mhdr mhdr' : Msghdr} {mem' : Memory}
    (hwalk : linuxCmsghdr.Walk mhdr mem (some linux_cmsg) ms)
    (hwalk' : cmsghdr.Walk mhdr' mem' (some freebsd_cmsg) (ms.map freebsdView))
    (hok : ∀ m ∈ ms, PayloadOk m) :
    mhdr.controlEnd + freebsd_cmsg < mhdr'.controlEnd + linux_cmsg + 24 := by
  induction ms generalizing linux_cmsg freebsd_cmsg with
  | nil => exact hwalk.elim
  | cons m ms ih =>
    obtain ⟨hat, hend, hrest⟩ := hwalk
    obtain ⟨hat', hend', hrest'⟩ := hwalk'
    have hm := hok m (List.mem_cons_self ..)
    have hspace := freebsdView_space hm
    rw [nxthdr_of_len linuxCmsghdr_padded hat.1 hend] at hrest
    rw [nxthdr_of_len cmsghdr_padded hat'.1 hend'] at hrest'
    cases hnext : nextCmsg mhdr linux_cmsg m.len with
    | none =>
      unfold nextCmsg at hnext
      split at hnext
      · next hover =>
        have hround : cmsgSpace (freebsdView m).len ≤ (freebsdView m).len + 7 := by
          unfold cmsgSpace
          omega
        omega
      · cases hnext
    | some next =>
      cases hnext' : nextCmsg mhdr' freebsd_cmsg (freebsdView m).len with
      | none =>
        rw [hnext] at hrest
        rw [hnext'] at hrest'
        cases ms with
        | nil => exact hrest.elim
        | cons m' ms => exact hrest'.elim
      | some next' =>
        rw [hnext] at hrest
        rw [hnext'] at hrest'
        have hlt := ih hrest hrest' fun m' hm' => hok m' (List.mem_cons_of_mem _ hm')
        have hle := (le_of_nextCmsg hnext).1
        have hle' := (le_of_nextCmsg hnext').1
        omega

end Run

/-- The state in which `linux2freebsd_cmsg` enters its loop. -/
def sendStart (b : SendControl) (mem : Memory) : CmsgLoop :=
  cmsgStart b.linux_msg b.freebsd_msg mem

/-- The loop comes to the state `s`. -/
def SendReaches (b : SendControl) (mem : Memory) (s : CmsgLoop) : Prop :=
  TailCall.Reaches (linux2freebsdCmsg b.linux_msg b.freebsd_msg) (sendStart b mem) s

/-- Nothing is read or written outside the two buffers, however long the loop runs. -/
def StaysInside (b : SendControl) (mem : Memory) : Prop :=
  ∀ s, SendReaches b mem s → ∀ e ∈ s.log, Inside b e

/-- The buffer of the caller holds the well-formed messages `ms`. -/
def SendsMessages (b : SendControl) (mem : Memory) (ms : List Cmsg) : Prop :=
  linuxCmsghdr.Holds b.linux_msg mem ms ∧ ∀ m ∈ ms, PayloadOk m

/-- The loop ends, and the new buffer holds the messages in FreeBSD terms. -/
def CopiesMessages (b : SendControl) (mem : Memory) (ms : List Cmsg) : Prop :=
  ∃ n s, TailCall.eval (linux2freebsdCmsg b.linux_msg b.freebsd_msg) n (sendStart b mem) = some s ∧
    cmsghdr.Holds b.freebsd_msg s.mem (ms.map freebsdView)

/-- What `linux2freebsd_cmsg` has to do. -/
def SendRight (b : SendControl) (mem : Memory) : Prop :=
  StaysInside b mem ∧ ∀ ms, SendsMessages b mem ms → CopiesMessages b mem ms

/-- Every message that the loop comes to fits. -/
def AllFit (b : SendControl) (mem : Memory) : Prop :=
  ∀ s freebsd_cmsg linux_cmsg, SendReaches b mem s → s.freebsd_cmsg = some freebsd_cmsg →
    s.linux_cmsg = some linux_cmsg → MessageFits b s.mem freebsd_cmsg linux_cmsg

/-- The size of the buffer fits `socklen_t`, and has the same meaning to both `FIRSTHDR`. -/
def SizeOk (b : SendControl) : Prop :=
  b.linux_msg.msg_controllen < 2 ^ 32 ∧
    (b.linux_msg.msg_controllen < 12 ∨ 16 ≤ b.linux_msg.msg_controllen)

section Call

variable {b : SendControl} {mem : Memory} {ms : List Cmsg}

/-- The loop moves on at two messages only. -/
theorem cursors_of_calls {s s' : CmsgLoop}
    (hcall : TailCall.Calls (linux2freebsdCmsg b.linux_msg b.freebsd_msg) s s') :
    ∃ freebsd_cmsg linux_cmsg, s.freebsd_cmsg = some freebsd_cmsg ∧
      s.linux_cmsg = some linux_cmsg ∧
      s'.log = s.log ++ (cmsgAdvance linux2freebsdCmsgBody b.linux_msg b.freebsd_msg s.mem
        freebsd_cmsg linux_cmsg).log := by
  have hround : cmsgRound linux2freebsdCmsgBody b.linux_msg b.freebsd_msg s = .call s' := hcall
  cases hfreebsd : s.freebsd_cmsg with
  | none =>
    rw [cmsgRound_ret (.inl hfreebsd)] at hround
    cases hround
  | some freebsd_cmsg =>
    cases hlinux : s.linux_cmsg with
    | none =>
      rw [cmsgRound_ret (.inr hlinux)] at hround
      cases hround
    | some linux_cmsg =>
      rw [cmsgRound_call _ _ _ hfreebsd hlinux] at hround
      refine ⟨freebsd_cmsg, linux_cmsg, rfl, rfl, ?_⟩
      rw [← Outcome.call.inj hround]

/-- The loop stays in the buffers exactly if every message that it comes to fits. -/
theorem staysInside_iff : StaysInside b mem ↔ AllFit b mem := by
  constructor
  · intro hinside s freebsd_cmsg linux_cmsg hreach hfreebsd hlinux
    have hround := cmsgRound_call linux2freebsdCmsgBody b.linux_msg b.freebsd_msg hfreebsd hlinux
    have hnext := hinside _ (Relation.ReflTransGen.tail hreach hround)
    exact sendRound_every.mp fun e he => hnext e (List.mem_append_right _ he)
  · intro hfit s hreach
    induction hreach with
    | refl => exact fun e he => absurd he (List.not_mem_nil)
    | tail hprev hcall ih =>
      obtain ⟨freebsd_cmsg, linux_cmsg, hfreebsd, hlinux, hlog⟩ := cursors_of_calls hcall
      have hround := sendRound_every.mpr (hfit _ _ _ hprev hfreebsd hlinux)
      intro e he
      rw [hlog, List.mem_append] at he
      rcases he with he | he
      · exact ih e he
      · exact hround e he

/-- The loop is entered with two first messages, or with none. -/
theorem paired_sendStart (hsize : SizeOk b) :
    Paired b (sendStart b mem).freebsd_cmsg (sendStart b mem).linux_cmsg := by
  obtain ⟨hlt, hsmall⟩ := hsize
  have hlen : b.freebsd_msg.msg_controllen = b.linux_msg.msg_controllen := Nat.mod_eq_of_lt hlt
  have h12 : cmsghdr.size = 12 := rfl
  have h16 : linuxCmsghdr.size = 16 := rfl
  simp only [sendStart, cmsgStart, CmsgLayout.firsthdr, hlen, h12, h16]
  rcases hsmall with hsmall | hlarge
  · rw [if_neg (by omega), if_neg (by omega)]
    trivial
  · rw [if_pos (by omega), if_pos (by omega)]
    exact ⟨le_refl _, Nat.add_comm _ _⟩

/-- A list that arrives had a size that both headers understand. -/
theorem CopiesMessages.sizeOk (hsends : SendsMessages b mem ms)
    (hcopies : CopiesMessages b mem ms) : SizeOk b := by
  obtain ⟨hholds, hok⟩ := hsends
  obtain ⟨n, s, -, hholds'⟩ := hcopies
  have hmod : b.linux_msg.msg_controllen % 2 ^ 32 ≤ b.linux_msg.msg_controllen := Nat.mod_le _ _
  unfold CmsgLayout.Holds CmsgLayout.firsthdr at hholds hholds'
  by_cases hlarge : b.linux_msg.msg_controllen ≥ linuxCmsghdr.size
  · rw [if_pos hlarge] at hholds
    split at hholds'
    · have hlt := controlEnd_lt_of_walks hholds hholds' hok
      have h16 : linuxCmsghdr.size = 16 := rfl
      simp only [Msghdr.controlEnd, SendControl.freebsd_msg] at hlt
      have hsize : b.linux_msg.msg_controllen < 2 ^ 32 := by omega
      exact ⟨hsize, .inr (by omega)⟩
    · cases ms with
      | nil => exact hholds.elim
      | cons m ms => exact hholds'.elim
  · rw [if_neg hlarge] at hholds
    have h16 : linuxCmsghdr.size = 16 := rfl
    have h12 : cmsghdr.size = 12 := rfl
    cases ms with
    | cons m ms => exact hholds.elim
    | nil =>
      split at hholds'
      · exact hholds'.elim
      · next hsmall =>
        have hlen : b.freebsd_msg.msg_controllen = b.linux_msg.msg_controllen % 2 ^ 32 := rfl
        exact ⟨by omega, .inl (by omega)⟩

/-- A well-formed list in a buffer of such a size arrives. -/
theorem SizeOk.sendRight (hsize : SizeOk b) (hsends : SendsMessages b mem ms) :
    SendRight b mem := by
  have hpair := @paired_sendStart b mem hsize
  refine ⟨staysInside_iff.mpr ?_, ?_⟩
  · intro s freebsd_cmsg linux_cmsg hreach hfreebsd hlinux
    exact messageFits_of_walk (s := sendStart b mem) hsends.1 hsends.2 hpair hsize.1 hreach hfreebsd
      hlinux
  · intro ms' hsends'
    obtain ⟨n, s, heval, hwalk, -⟩ := sendLoop_copies (s := sendStart b mem) hsends'.1 hsends'.2 hpair
      hsize.1
    exact ⟨n, s, heval, hwalk⟩

/-- For other lists it is the fit of the messages that counts. -/
theorem AllFit.sendRight (hfit : AllFit b mem) (hnone : ¬ ∃ ms, SendsMessages b mem ms) :
    SendRight b mem :=
  ⟨staysInside_iff.mpr hfit, fun ms hsends => absurd ⟨ms, hsends⟩ hnone⟩

end Call

/-- The conversion is right exactly if a well-formed list has a buffer whose size both headers
understand, and of any other list every message that the loop comes to fits. -/
theorem sendRight_iff (b : SendControl) (mem : Memory) :
    SendRight b mem ↔ ((∃ ms, SendsMessages b mem ms) → SizeOk b) ∧
      ((¬ ∃ ms, SendsMessages b mem ms) → AllFit b mem) := by
  constructor
  · rintro ⟨hinside, hcopies⟩
    refine ⟨?_, fun _ => staysInside_iff.mp hinside⟩
    rintro ⟨ms, hsends⟩
    exact (hcopies ms hsends).sizeOk hsends
  · rintro ⟨hsize, hfit⟩
    by_cases hsome : ∃ ms, SendsMessages b mem ms
    · obtain ⟨ms, hsends⟩ := hsome
      exact (hsize ⟨ms, hsends⟩).sendRight hsends
    · exact (hfit hsome).sendRight hsome

/-- A message of 16 bytes at address 4096, whose length is given as 0; the new buffer is at 8192. -/
def emptyLength : SendControl where
  linux_msg := ⟨4096, 16, by decide⟩
  freebsd_cmsg := 8192
  user := by decide
  fresh := by decide

theorem not_sendRight_emptyLength : ¬ SendRight emptyLength fun _ => 0 := by
  intro hright
  have hfits := staysInside_iff.mp hright.1 (sendStart emptyLength fun _ => 0) 8192 4096
    Relation.ReflTransGen.refl rfl rfl
  have hnot : ¬ MessageFits emptyLength (fun _ => 0) 8192 4096 := by
    unfold MessageFits HeadersFit PayloadFits DataFits
    decide
  exact hnot hfits

end FStack.Analysis
