import FStack.Analysis.ControlMsgWalk

/-!
# Control messages converted where they stand

`freebsd2linux_cmsghdr` walks one buffer with two pointers that are equal all the time, and rewrites each
header before it reads the length that leads to the next one.  For every list of messages that the kernel
has put into the buffer the Linux walk afterwards finds the same list in Linux terms, and nothing else is
written (`losslessRecv_of_padded`).

An `IP_RECVTTL` message carries one byte and its Linux form four: the three bytes more are written into
the padding.  `losslessRecv_iff` is the exact condition, without the padding of the last message:
there must be room for the four bytes.
-/

set_option autoImplicit false

namespace FStack.Analysis

open FStack.Model FStack.Prelude

/-- The message is the time to live of a datagram. -/
def IsRecvTtl (m : Cmsg) : Prop := m.level = IPPROTO_IP ∧ m.type = IP_RECVTTL

instance (m : Cmsg) : Decidable (IsRecvTtl m) := by
  unfold IsRecvTtl
  infer_instance

/-- The kernel reports the time to live as one `u_char`.
SOURCE: freebsd/netinet/ip_input.c:1218-1220 -/
def TtlIsByte (m : Cmsg) : Prop := IsRecvTtl m → m.data.length = 1

instance (m : Cmsg) : Decidable (TtlIsByte m) := by
  unfold TtlIsByte
  infer_instance

/-- The message in the terms of a Linux program. -/
def linuxView (m : Cmsg) : Cmsg :=
  if IsRecvTtl m then { m with type := LINUX_IP_TTL, data := leBytes 4 (ofLeBytes m.data) }
  else if m.level = IPPROTO_IP ∧ m.type = IP_RECVTOS then { m with type := LINUX_IP_TOS }
  else m

/-- `a` is a byte of one of the messages that stand from `cmsg` on. -/
def InMessages (cmsg : ℕ) : List Cmsg → ℕ → Prop
  | [], _ => False
  | m :: ms, a => (cmsg ≤ a ∧ a < cmsg + m.len) ∨ InMessages (cmsg + cmsgSpace m.len) ms a

/-- The call ends, the Linux walk finds the messages in Linux terms, and no byte outside them is
changed. -/
def LosslessRecv (r : RecvControl) (mem : Memory) (ms : List Cmsg) : Prop :=
  ∃ n s, TailCall.eval (freebsd2linuxCmsghdr r.linux_msg r.freebsd_msg) n
      (cmsgStart r.linux_msg r.freebsd_msg mem) = some s ∧
    linuxCmsghdr.Holds r.linuxAfter s.mem (ms.map linuxView) ∧
    ∀ a, ¬ InMessages r.linux_msg.msg_control (ms.map linuxView) a → s.mem a = mem a

/-- The bytes of the messages with their padding: what `kern_recvit` copies, whole messages only.
SOURCE: freebsd/kern/uipc_syscalls.c:1013-1024, freebsd/kern/uipc_sockbuf.c:1861 -/
def spaceOf (ms : List Cmsg) : ℕ := (ms.map fun m => cmsgSpace m.len).sum

/-- If the last message is a time to live, the buffer has room for it as an `int`. -/
def RoomToWiden (controlEnd : ℕ) : ℕ → List Cmsg → Prop
  | _, [] => True
  | cmsg, [m] => IsRecvTtl m → cmsg + 20 ≤ controlEnd
  | cmsg, m :: ms => RoomToWiden controlEnd (cmsg + cmsgSpace m.len) ms

section View

variable {m : Cmsg}

theorem linuxView_len (m : Cmsg) :
    (linuxView m).len = if IsRecvTtl m then 20 else m.len := by
  unfold linuxView
  by_cases httl : IsRecvTtl m
  · rw [if_pos httl, if_pos httl]
    simp [Cmsg.len]
  · rw [if_neg httl, if_neg httl]
    split
    · rfl
    · rfl

/-- The wide form takes the same space. -/
theorem linuxView_space (h : TtlIsByte m) : cmsgSpace (linuxView m).len = cmsgSpace m.len := by
  rw [linuxView_len]
  split
  · next httl =>
    have hlen : m.len = 17 := by rw [Cmsg.len, h httl]
    rw [hlen]
    rfl
  · rfl

theorem linuxView_len_le (h : TtlIsByte m) : (linuxView m).len ≤ cmsgSpace m.len := by
  rw [← linuxView_space h]
  exact le_cmsgSpace _

end View

/-- The memory when the three fields of the header at `cmsg` have been moved. -/
def movedHeader (mem : Memory) (cmsg : ℕ) (m : Cmsg) : Memory :=
  writeLe (writeLe (writeLe mem (cmsg + 12) 4 m.type) (cmsg + 8) 4 m.level) cmsg 8 m.len

section Body

variable {mem : Memory} {cmsg : ℕ} {m : Cmsg}

/-- The numbers of a FreeBSD header take 32 bits. -/
theorem at_cmsghdr_bounds (hat : cmsghdr.At mem cmsg m) :
    m.len < 2 ^ 32 ∧ m.level < 2 ^ 32 ∧ m.type < 2 ^ 32 := by
  obtain ⟨hlen, hlevel, htype, -⟩ := at_cmsghdr_iff.mp hat
  have h1 := readLe_lt mem cmsg 4
  have h2 := readLe_lt mem (cmsg + 4) 4
  have h3 := readLe_lt mem (cmsg + 8) 4
  exact ⟨by omega, by omega, by omega⟩

theorem movedHeader_of_outside {a : ℕ} (h : a < cmsg ∨ cmsg + 16 ≤ a) :
    movedHeader mem cmsg m a = mem a := by
  rw [movedHeader, writeLe_of_outside (by omega), writeLe_of_outside (by omega),
    writeLe_of_outside (by omega)]

/-- The moved header is the Linux header of the same message. -/
theorem movedHeader_at (hat : cmsghdr.At mem cmsg m) :
    linuxCmsghdr.At (movedHeader mem cmsg m) cmsg m := by
  obtain ⟨hlen, hlevel, htype⟩ := at_cmsghdr_bounds hat
  have hdata := (at_cmsghdr_iff.mp hat).2.2.2
  refine at_linuxCmsghdr_iff.mpr ⟨?_, ?_, ?_, ?_⟩
  · rw [movedHeader, readLe_writeLe_self, Nat.mod_eq_of_lt (by omega)]
  · rw [movedHeader, readLe_writeLe_of_disjoint (by omega), readLe_writeLe_self,
      Nat.mod_eq_of_lt (by omega)]
  · rw [movedHeader, readLe_writeLe_of_disjoint (by omega), readLe_writeLe_of_disjoint (by omega),
      readLe_writeLe_self, Nat.mod_eq_of_lt (by omega)]
  · rw [← hdata, length_readAt]
    exact readAt_congr fun i hlo _ => movedHeader_of_outside (by omega)

/-- What the assignments before the `switch` leave. -/
theorem recvHeader_val (hat : cmsghdr.At mem cmsg m) :
    (freebsd2linuxCmsghdrHeader mem cmsg cmsg).val = movedHeader mem cmsg m := by
  obtain ⟨hlen, hlevel, htype, -⟩ := at_cmsghdr_iff.mp hat
  have hbound := (at_cmsghdr_bounds hat).1
  have hlow : 16 ≤ m.len := by simp [Cmsg.len]
  have hsize : linuxCmsghdr.cmsgLen (sub64 m.len (align cmsghdr.size)) = m.len := by
    rw [CmsgLayout.cmsgLen, linuxCmsghdr_padded.size, cmsghdr_padded.size, sub64]
    omega
  unfold freebsd2linuxCmsghdrHeader
  simp only [Logged.val_bind, cmsghdr_getType, cmsghdr_getLevel, cmsghdr_getLen,
    linuxCmsghdr_setType, linuxCmsghdr_setLevel, linuxCmsghdr_setLen, loadLe_val, storeLe_val]
  rw [htype, readLe_writeLe_of_disjoint (q := cmsg + 4) (.inl (by omega)), hlevel,
    readLe_writeLe_of_disjoint (q := cmsg) (.inl (by omega)),
    readLe_writeLe_of_disjoint (q := cmsg) (.inl (by omega)), hlen, hsize, movedHeader]

/-- The `switch` at a Linux message. -/
theorem recvSwitch_val (hat : linuxCmsghdr.At mem cmsg m) :
    (freebsd2linuxCmsghdrSwitch mem cmsg cmsg).val =
      if IsRecvTtl m then
        writeLe (writeLe (writeLe mem cmsg 8 20) (cmsg + 12) 4 LINUX_IP_TTL) (cmsg + 16) 4
          (readLe mem (cmsg + 16) 1)
      else if m.level = IPPROTO_IP ∧ m.type = IP_RECVTOS then
        writeLe mem (cmsg + 12) 4 LINUX_IP_TOS
      else mem := by
  obtain ⟨hlen, hlevel, htype, -⟩ := at_linuxCmsghdr_iff.mp hat
  have hcopy : (freebsd2linuxCmsghdrCopy mem cmsg cmsg).val = mem := writeAt_readAt_self _ _ _
  unfold freebsd2linuxCmsghdrSwitch IsRecvTtl
  simp only [Logged.val_bind, linuxCmsghdr_getLevel, linuxCmsghdr_getType, loadLe_val, hlevel]
  by_cases hip : m.level = IPPROTO_IP
  · simp only [hip, if_true, true_and, Logged.val_bind, loadLe_val, htype]
    by_cases htos : m.type = IP_RECVTOS
    · have hne : ¬ IP_RECVTOS = IP_RECVTTL := by decide
      simp only [htos, hne, if_true, if_false, Logged.val_bind, linuxCmsghdr_setType, storeLe_val,
        cmsghdr_cmsgData, linuxCmsghdr_cmsgData, loadLe_val, writeLe_readLe_self]
    · by_cases httl : m.type = IP_RECVTTL
      · have hne : ¬ IP_RECVTTL = IP_RECVTOS := by decide
        have hwide : linuxCmsghdr.cmsgLen 4 = 20 := rfl
        simp only [httl, hne, hwide, if_true, if_false, Logged.val_bind, linuxCmsghdr_setType,
          linuxCmsghdr_setLen, storeLe_val, cmsghdr_cmsgData, linuxCmsghdr_cmsgData, loadLe_val]
        rw [readLe_writeLe_of_disjoint (q := cmsg + 16) (.inr (by omega)),
          readLe_writeLe_of_disjoint (q := cmsg + 16) (.inr (by omega))]
      · simp only [httl, htos, if_false, hcopy]
  · simp only [hip, if_false, false_and, hcopy]

/-- The `switch` makes the Linux message of it, and touches nothing behind its data. -/
theorem recvSwitch_at (hat : linuxCmsghdr.At mem cmsg m) (hbyte : TtlIsByte m) :
    linuxCmsghdr.At (freebsd2linuxCmsghdrSwitch mem cmsg cmsg).val cmsg (linuxView m) ∧
      ∀ a, a < cmsg ∨ cmsg + (linuxView m).len ≤ a →
        (freebsd2linuxCmsghdrSwitch mem cmsg cmsg).val a = mem a := by
  obtain ⟨hlen, hlevel, htype, hdata⟩ := at_linuxCmsghdr_iff.mp hat
  have hview := linuxView_len m
  have hlow : 16 ≤ m.len := by simp [Cmsg.len]
  rw [recvSwitch_val hat, at_linuxCmsghdr_iff]
  unfold linuxView at hview ⊢
  split
  · next httl =>
    rw [if_pos httl] at hview
    have hopt : readLe mem (cmsg + 16) 1 = ofLeBytes m.data := by
      rw [hbyte httl] at hdata
      rw [readLe, hdata]
    rw [if_pos httl] at hview
    rw [hopt, hview]
    refine ⟨⟨?_, ?_, ?_, ?_⟩, ?_⟩
    · rw [readLe_writeLe_of_disjoint (by omega), readLe_writeLe_of_disjoint (by omega),
        readLe_writeLe_self]
      rfl
    · rw [readLe_writeLe_of_disjoint (by omega), readLe_writeLe_of_disjoint (by omega),
        readLe_writeLe_of_disjoint (by omega), hlevel]
    · rw [readLe_writeLe_of_disjoint (by omega), readLe_writeLe_self]
      rfl
    · simp only [length_leBytes, readAt_writeLe_self]
    · intro a ha
      rw [writeLe_of_outside (by omega), writeLe_of_outside (by omega),
        writeLe_of_outside (by omega)]
  · next httl =>
    rw [if_neg httl, if_neg httl] at hview
    split
    · next htos =>
      rw [if_pos htos] at hview
      rw [hview]
      refine ⟨⟨?_, ?_, ?_, ?_⟩, ?_⟩
      · rw [readLe_writeLe_of_disjoint (by omega), hlen]
      · rw [readLe_writeLe_of_disjoint (by omega), hlevel]
      · rw [readLe_writeLe_self]
        rfl
      · rw [readAt_writeLe_of_disjoint (by omega), hdata]
      · intro a ha
        exact writeLe_of_outside (by omega)
    · exact ⟨⟨hlen, hlevel, htype, hdata⟩, fun _ _ => rfl⟩

/-- One round puts the Linux message in the place of the FreeBSD message, and changes no other
byte. -/
theorem recvBody_at (hat : cmsghdr.At mem cmsg m) (hbyte : TtlIsByte m) :
    linuxCmsghdr.At (freebsd2linuxCmsghdrBody mem cmsg cmsg).val cmsg (linuxView m) ∧
      ∀ a, a < cmsg ∨ cmsg + (linuxView m).len ≤ a →
        (freebsd2linuxCmsghdrBody mem cmsg cmsg).val a = mem a := by
  unfold freebsd2linuxCmsghdrBody
  rw [Logged.val_bind, recvHeader_val hat]
  obtain ⟨hat', hsame⟩ := recvSwitch_at (movedHeader_at hat) hbyte
  refine ⟨hat', fun a ha => ?_⟩
  have hlow : 16 ≤ (linuxView m).len := by simp [Cmsg.len]
  rw [hsame a ha, movedHeader_of_outside (by omega)]

end Body

section Run

variable {r : RecvControl} {mem : Memory} {cmsg : ℕ} {m : Cmsg} {ms : List Cmsg}

theorem InMessages.le {a : ℕ} (h : InMessages cmsg ms a) : cmsg ≤ a := by
  induction ms generalizing cmsg with
  | nil => exact h.elim
  | cons m ms ih =>
    rcases h with h | h
    · exact h.1
    · exact (Nat.le_add_right _ _).trans (ih h)

/-- Where both headers have a next message it is the same one. -/
theorem nextCmsg_linux {next len : ℕ} (h : nextCmsg r.freebsd_msg cmsg len = some next) :
    nextCmsg r.linux_msg cmsg len = some next := by
  obtain ⟨hnext, hend⟩ := le_of_nextCmsg h
  have hle : r.freebsd_msg.controlEnd ≤ r.linux_msg.controlEnd := by
    unfold Msghdr.controlEnd
    have hshared := r.shared
    have hreceived := r.received
    omega
  rw [nextCmsg, if_neg (by omega), hnext]

theorem linuxAfter_controlEnd : r.linuxAfter.controlEnd = r.freebsd_msg.controlEnd := by
  simp only [Msghdr.controlEnd, RecvControl.linuxAfter, r.shared]

/-- The wide form of the message at `cmsg` is inside the received part. -/
theorem RoomToWiden.head (hroom : RoomToWiden r.freebsd_msg.controlEnd cmsg (m :: ms))
    (hbyte : TtlIsByte m) (hend : cmsg + m.len ≤ r.freebsd_msg.controlEnd)
    (hrest : cmsghdr.Walk r.freebsd_msg mem (nextCmsg r.freebsd_msg cmsg m.len) ms) :
    cmsg + (linuxView m).len ≤ r.freebsd_msg.controlEnd := by
  cases ms with
  | nil =>
    rw [linuxView_len]
    split
    · next httl => exact hroom httl
    · exact hend
  | cons m' ms =>
    cases hnext : nextCmsg r.freebsd_msg cmsg m.len with
    | none =>
      rw [hnext] at hrest
      exact hrest.elim
    | some next =>
      have hle := le_of_nextCmsg hnext
      have hview := linuxView_len_le hbyte
      omega

/-- The room is a matter of the last message only. -/
theorem RoomToWiden.tail {next : ℕ} (hroom : RoomToWiden r.freebsd_msg.controlEnd cmsg (m :: ms))
    (hnext : nextCmsg r.freebsd_msg cmsg m.len = some next) :
    RoomToWiden r.freebsd_msg.controlEnd next ms := by
  obtain ⟨rfl, -⟩ := le_of_nextCmsg hnext
  cases ms with
  | nil => trivial
  | cons m' ms => exact hroom

/-- Both walks go on behind the message.  The FreeBSD one reads its length in the low half of
the Linux length, which is what the FreeBSD length was, or takes the same space. -/
theorem recvBody_next (hat : cmsghdr.At mem cmsg m) (hbyte : TtlIsByte m)
    (hfits : cmsg + (linuxView m).len ≤ r.freebsd_msg.controlEnd) :
    (cmsghdr.nxthdr r.freebsd_msg (freebsd2linuxCmsghdrBody mem cmsg cmsg).val cmsg).val =
        nextCmsg r.freebsd_msg cmsg m.len ∧
      (linuxCmsghdr.nxthdr r.linux_msg (freebsd2linuxCmsghdrBody mem cmsg cmsg).val cmsg).val =
        nextCmsg r.linux_msg cmsg m.len := by
  obtain ⟨hat', -⟩ := recvBody_at hat hbyte
  have hlen := (at_linuxCmsghdr_iff.mp hat').1
  have hbound : (linuxView m).len < 2 ^ 32 := by
    have hm := (at_cmsghdr_bounds hat).1
    rw [linuxView_len]
    split
    · decide
    · exact hm
  have hlow : readLe (freebsd2linuxCmsghdrBody mem cmsg cmsg).val cmsg 4 = (linuxView m).len := by
    rw [readLe_of_le _ _ (show 4 ≤ 8 by decide), hlen]
    exact Nat.mod_eq_of_lt hbound
  have hspace := linuxView_space hbyte
  have hlinux : cmsg + (linuxView m).len ≤ r.linux_msg.controlEnd := by
    have hshared := r.shared
    have hreceived := r.received
    unfold Msghdr.controlEnd at hfits ⊢
    omega
  rw [nxthdr_of_len cmsghdr_padded hlow hfits, nxthdr_of_len linuxCmsghdr_padded hlen hlinux]
  simp only [nextCmsg, hspace, and_self]

/-- The loop from a message on.  The induction is on the list; what the round has written
stays in front of the rest of the walk. -/
theorem recvLoop_converts {s : CmsgLoop}
    (hwalk : cmsghdr.Walk r.freebsd_msg s.mem s.freebsd_cmsg ms)
    (hlinux : ∀ c, s.freebsd_cmsg = some c → s.linux_cmsg = some c)
    (hroom : ∀ c, s.freebsd_cmsg = some c → RoomToWiden r.freebsd_msg.controlEnd c ms)
    (hbyte : ∀ m ∈ ms, TtlIsByte m) :
    ∃ n s', TailCall.eval (freebsd2linuxCmsghdr r.linux_msg r.freebsd_msg) n s = some s' ∧
      linuxCmsghdr.Walk r.linuxAfter s'.mem s.freebsd_cmsg (ms.map linuxView) ∧
      ∀ a, (∀ c, s.freebsd_cmsg = some c → ¬ InMessages c (ms.map linuxView) a) →
        s'.mem a = s.mem a := by
  induction ms generalizing s with
  | nil =>
    cases hcursor : s.freebsd_cmsg with
    | none =>
      refine ⟨1, s, ?_, trivial, fun _ _ => rfl⟩
      rw [TailCall.eval, freebsd2linuxCmsghdr, cmsgRound_ret (.inl hcursor)]
    | some c =>
      rw [hcursor] at hwalk
      exact hwalk.elim
  | cons m ms ih =>
    cases hcursor : s.freebsd_cmsg with
    | none =>
      rw [hcursor] at hwalk
      exact hwalk.elim
    | some c =>
      rw [hcursor] at hwalk
      obtain ⟨hat, hend, hrest⟩ := hwalk
      have hlx := hlinux c hcursor
      have hm : TtlIsByte m := hbyte m (List.mem_cons_self ..)
      obtain ⟨hat', hsame⟩ := recvBody_at hat hm
      rw [nxthdr_of_len cmsghdr_padded hat.1 hend] at hrest
      have hfits := (hroom c hcursor).head hm hend hrest
      have hspace := linuxView_space hm
      obtain ⟨hfreebsd, hlinux'⟩ := recvBody_next hat hm hfits
      have hround := cmsgRound_call freebsd2linuxCmsghdrBody r.linux_msg r.freebsd_msg hcursor hlx
      rw [hfreebsd, hlinux'] at hround
      have hbehind : c + (linuxView m).len ≤ c + cmsgSpace m.len :=
        Nat.add_le_add_left (linuxView_len_le hm) c
      have hnext : ∀ next, nextCmsg r.freebsd_msg c m.len = some next → next = c + cmsgSpace m.len :=
        fun next h => (le_of_nextCmsg h).1
      generalize s.log ++ (cmsgAdvance freebsd2linuxCmsghdrBody r.linux_msg r.freebsd_msg
        s.mem c c).log = log at hround
      generalize (freebsd2linuxCmsghdrBody s.mem c c).val = mem' at hat' hsame hround
      have hrest' : cmsghdr.Walk r.freebsd_msg mem' (nextCmsg r.freebsd_msg c m.len) ms :=
        walk_congr cmsghdr_padded (fun i hi _ => hsame i (.inr (hbehind.trans hi)))
          (fun next h => (hnext next h).ge) hrest
      obtain ⟨n, s', heval, hwalk', hframe⟩ := @ih ⟨mem', nextCmsg r.freebsd_msg c m.len,
          nextCmsg r.linux_msg c m.len, log⟩ hrest' (fun next h => nextCmsg_linux h)
        (fun next h => (hroom c hcursor).tail h)
        (fun m' hm' => hbyte m' (List.mem_cons_of_mem _ hm'))
      refine ⟨n + 1, s', ?_, ?_, ?_⟩
      · rw [TailCall.eval, freebsd2linuxCmsghdr, hround]
        exact heval
      · have hat'' : linuxCmsghdr.At s'.mem c (linuxView m) := by
          refine at_congr linuxCmsghdr_padded (fun i hlo hhi => ?_) hat'
          refine hframe i fun next hsome hin => ?_
          have hle := hin.le
          have heq := hnext next hsome
          omega
        have hend'' : c + (linuxView m).len ≤ r.linuxAfter.controlEnd := by
          rw [linuxAfter_controlEnd]
          exact hfits
        refine ⟨hat'', hend'', ?_⟩
        rw [nxthdr_of_len linuxCmsghdr_padded hat''.1 hend'', nextCmsg, linuxAfter_controlEnd, hspace]
        exact hwalk'
      · intro a ha
        have hout := ha c rfl
        simp only [List.map_cons, InMessages, not_or, hspace] at hout
        have hrest' : s'.mem a = mem' a := by
          refine hframe a fun next hsome hin => hout.2 ?_
          rw [← hnext next hsome]
          exact hin
        rw [hrest', hsame a (by omega)]

/-- A Linux walk that finds the wide form of the last message has room for it. -/
theorem roomToWiden_of_walk {mhdr : Msghdr} {mem : Memory}
    (hwalk : linuxCmsghdr.Walk mhdr mem (some cmsg) (ms.map linuxView))
    (hbyte : ∀ m ∈ ms, TtlIsByte m) : RoomToWiden mhdr.controlEnd cmsg ms := by
  induction ms generalizing cmsg with
  | nil => trivial
  | cons m ms ih =>
    obtain ⟨hat, hend, hrest⟩ := hwalk
    rw [nxthdr_of_len linuxCmsghdr_padded hat.1 hend] at hrest
    cases ms with
    | nil =>
      intro httl
      rwa [linuxView_len, if_pos httl] at hend
    | cons m' ms =>
      cases hnext : nextCmsg mhdr cmsg (linuxView m).len with
      | none =>
        rw [hnext] at hrest
        exact hrest.elim
      | some next =>
        rw [hnext] at hrest
        have hroom := ih hrest fun m'' hm'' => hbyte m'' (List.mem_cons_of_mem _ hm'')
        rw [(le_of_nextCmsg hnext).1, linuxView_space (hbyte m (List.mem_cons_self ..))] at hroom
        exact hroom

/-- The loop is entered with one pointer twice. -/
theorem firsthdr_linux {c : ℕ} (hholds : cmsghdr.Holds r.freebsd_msg mem ms)
    (hfirst : cmsghdr.firsthdr r.freebsd_msg = some c) :
    linuxCmsghdr.firsthdr r.linux_msg = some c ∧ linuxCmsghdr.firsthdr r.linuxAfter = some c ∧
      c = r.freebsd_msg.msg_control := by
  have hc : c = r.freebsd_msg.msg_control := by
    unfold CmsgLayout.firsthdr at hfirst
    split at hfirst
    · exact (Option.some.inj hfirst).symm
    · cases hfirst
  have hlow : 16 ≤ r.freebsd_msg.msg_controllen := by
    unfold CmsgLayout.Holds at hholds
    rw [hfirst] at hholds
    cases ms with
    | nil => exact hholds.elim
    | cons m ms =>
      have hend := hholds.2.1
      simp only [Cmsg.len, Msghdr.controlEnd] at hend
      omega
  have hreceived := r.received
  have hlinux : r.linux_msg.msg_controllen ≥ linuxCmsghdr.size := hlow.trans hreceived
  have hafter : r.linuxAfter.msg_controllen ≥ linuxCmsghdr.size := hlow
  refine ⟨?_, ?_, hc⟩
  · rw [CmsgLayout.firsthdr, if_pos hlinux, hc, r.shared]
  · rw [CmsgLayout.firsthdr, if_pos hafter, hc, r.shared]
    rfl

/-- With no message in the buffer the Linux walk finds none. -/
theorem firsthdr_linuxAfter_none (hfirst : cmsghdr.firsthdr r.freebsd_msg = none) :
    linuxCmsghdr.firsthdr r.linuxAfter = none := by
  unfold CmsgLayout.firsthdr at hfirst
  split at hfirst
  · cases hfirst
  · next hlow =>
    have hafter : ¬ r.linuxAfter.msg_controllen ≥ linuxCmsghdr.size := by
      simp only [cmsghdr, linuxCmsghdr, RecvControl.linuxAfter] at hlow ⊢
      omega
    rw [CmsgLayout.firsthdr, if_neg hafter]

/-- Enough room, and nothing is lost. -/
theorem RoomToWiden.losslessRecv (hholds : cmsghdr.Holds r.freebsd_msg mem ms)
    (hbyte : ∀ m ∈ ms, TtlIsByte m)
    (hroom : RoomToWiden r.freebsd_msg.controlEnd r.freebsd_msg.msg_control ms) : LosslessRecv r mem ms := by
  obtain ⟨n, s, heval, hwalk, hframe⟩ :=
    recvLoop_converts (s := cmsgStart r.linux_msg r.freebsd_msg mem) hholds
      (fun c h => (firsthdr_linux hholds h).1)
      (fun c h => by rw [(firsthdr_linux hholds h).2.2]; exact hroom) hbyte
  refine ⟨n, s, heval, ?_, ?_⟩
  · unfold CmsgLayout.Holds
    cases hfirst : cmsghdr.firsthdr r.freebsd_msg with
    | none =>
      rw [firsthdr_linuxAfter_none hfirst, ← hfirst]
      exact hwalk
    | some c =>
      rw [(firsthdr_linux hholds hfirst).2.1, ← hfirst]
      exact hwalk
  · intro a ha
    refine hframe a fun c h => ?_
    rwa [(firsthdr_linux hholds h).2.2, r.shared]

/-- Nothing lost means that there was room. -/
theorem LosslessRecv.roomToWiden (hholds : cmsghdr.Holds r.freebsd_msg mem ms)
    (hbyte : ∀ m ∈ ms, TtlIsByte m) (hlossless : LosslessRecv r mem ms) :
    RoomToWiden r.freebsd_msg.controlEnd r.freebsd_msg.msg_control ms := by
  obtain ⟨n, s, -, hafter, -⟩ := hlossless
  cases ms with
  | nil => trivial
  | cons m ms =>
    cases hfirst : cmsghdr.firsthdr r.freebsd_msg with
    | none =>
      unfold CmsgLayout.Holds at hholds
      rw [hfirst] at hholds
      exact hholds.elim
    | some c =>
      obtain ⟨-, hlinux, hc⟩ := firsthdr_linux hholds hfirst
      unfold CmsgLayout.Holds at hafter
      rw [hlinux] at hafter
      have hroom := roomToWiden_of_walk hafter hbyte
      rwa [linuxAfter_controlEnd, hc] at hroom

/-- With its padding in the buffer every message has room to be widened. -/
theorem roomToWiden_of_spaceOf {controlEnd : ℕ} (hspace : cmsg + spaceOf ms ≤ controlEnd)
    (hbyte : ∀ m ∈ ms, TtlIsByte m) : RoomToWiden controlEnd cmsg ms := by
  induction ms generalizing cmsg with
  | nil => trivial
  | cons m ms ih =>
    simp only [spaceOf, List.map_cons, List.sum_cons] at hspace
    cases ms with
    | nil =>
      intro httl
      have hlen : m.len = 17 := by rw [Cmsg.len, hbyte m (List.mem_cons_self ..) httl]
      have hwide : cmsgSpace m.len = 24 := by
        rw [hlen]
        rfl
      omega
    | cons m' ms =>
      refine ih ?_ fun m'' hm'' => hbyte m'' (List.mem_cons_of_mem _ hm'')
      rw [spaceOf, Nat.add_assoc]
      exact hspace

end Run

/-- Without any assumption about the padding of the last message, nothing is lost exactly if a time to
live at the end can be widened inside the buffer. -/
theorem losslessRecv_iff (r : RecvControl) (mem : Memory) (ms : List Cmsg)
    (hholds : cmsghdr.Holds r.freebsd_msg mem ms) (hbyte : ∀ m ∈ ms, TtlIsByte m) :
    LosslessRecv r mem ms ↔
      RoomToWiden r.freebsd_msg.controlEnd r.freebsd_msg.msg_control ms :=
  ⟨LosslessRecv.roomToWiden hholds hbyte, RoomToWiden.losslessRecv hholds hbyte⟩

/-- Control messages in the layout of the kernel are converted where they stand without loss. -/
theorem losslessRecv_of_padded (r : RecvControl) (mem : Memory) (ms : List Cmsg)
    (hholds : cmsghdr.Holds r.freebsd_msg mem ms) (hspace : spaceOf ms ≤ r.freebsd_msg.msg_controllen)
    (hbyte : ∀ m ∈ ms, TtlIsByte m) : LosslessRecv r mem ms := by
  refine (losslessRecv_iff r mem ms hholds hbyte).mpr (roomToWiden_of_spaceOf ?_ hbyte)
  exact Nat.add_le_add_left hspace _

/-- A buffer at address 4096 that the kernel has filled with `bytes`, and that is `room` bytes longer. -/
def recvInto (bytes : List UInt8) (room : ℕ) (h : 4096 + bytes.length + room ≤ userEnd) :
    RecvControl where
  linux_msg := ⟨4096, bytes.length + room, by omega⟩
  freebsd_msg := ⟨4096, bytes.length, by omega⟩
  shared := rfl
  received := Nat.le_add_right _ _

/-- The memory with `bytes` in that buffer. -/
def recvMemory (bytes : List UInt8) : Memory := writeAt (fun _ => 255) 4096 bytes

/-- A type of service, a foreign message and a time to live, as the kernel lays them out. -/
def threeMessages : List UInt8 :=
  [17, 0, 0, 0, 0, 0, 0, 0, 68, 0, 0, 0, 0, 0, 0, 0, 16, 0, 0, 0, 0, 0, 0, 0,
   20, 0, 0, 0, 255, 255, 0, 0, 2, 0, 0, 0, 0, 0, 0, 0, 1, 2, 3, 4, 0, 0, 0, 0,
   17, 0, 0, 0, 0, 0, 0, 0, 65, 0, 0, 0, 0, 0, 0, 0, 64, 0, 0, 0, 0, 0, 0, 0]

theorem losslessRecv_threeMessages :
    LosslessRecv (recvInto threeMessages 12 (by decide)) (recvMemory threeMessages)
      [⟨0, 68, [16]⟩, ⟨65535, 2, [1, 2, 3, 4]⟩, ⟨0, 65, [64]⟩] :=
  losslessRecv_of_padded _ _ _ (by decide) (by decide) (by decide)

end FStack.Analysis
