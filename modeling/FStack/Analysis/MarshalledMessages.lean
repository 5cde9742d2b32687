import FStack.Analysis.ControlReplies
import FStack.Model.ToolCalls
import Mathlib.Data.List.GetD

/-!
# What the calls of the tools do with an intact message

A call that is given an intact message leaves it such that giving it back makes it intact again, and writes into
its buffer only (`marshal_so`), for the arguments that `CallSafe` admits.  `rtioctl` moves `buf_addr` otherwise,
and `ngctl`, `ipfw_ctl` and `ioctl_va` write behind the buffer.
-/

set_option autoImplicit false

namespace FStack.Analysis

open FStack.Model

variable {α : Type}
variable {msg : FfMsg α} {m : ℕ}

/-- The write stays in the buffer behind the message `m`, or in a buffer that has been allocated. -/
def MsgWrite.Within (extras : List ℕ) (m : ℕ) (w : MsgWrite) : Prop :=
  w.len = 0 ∨
    match w.ptr with
    | .embedded m' off => m' = m ∧ off + w.len ≤ MSG_BUF_LEN
    | .extra buf off => off + w.len ≤ extras.getD buf 0

/-- How many bytes `sysctl` copies. -/
def SysctlArgs.written (a : SysctlArgs) : ℕ :=
  a.namelen * 4 + (if a.new then a.newlen else 0) +
    match a.oldlenp with
    | none => 0
    | some oldlen => 8 + if a.old then oldlen else 0

/-- What a call of `ngctl` copies fits into the buffer. -/
def NgCall.Fits : NgCall → Prop
  | .recvfrom len fromlen =>
    48 + len ≤ MSG_BUF_LEN ∧ (fromlen = 0 ∨ 48 + 16 * len + fromlen ≤ MSG_BUF_LEN) ∧
      48 + 4 * (len + fromlen) + 4 ≤ MSG_BUF_LEN
  | c => c.size ≤ MSG_BUF_LEN

/-- A call of `ipfw_ctl` is refused, or fits. -/
def IpfwSafe (optlen : ℕ) : Prop :=
  MSG_BUF_LEN < (ipfwLen optlen % 2 ^ 64).toNat ∨ optlen + 4 ≤ MSG_BUF_LEN

/-- A call that is not refused leaves the buffer of its message where it is, and writes into its buffer
only. -/
def CallSafe : ToolCall → Prop
  | .sysctl a =>
    SysctlArgs.written a ≤ a.size % 2 ^ 64 ∨
      a.size % 2 ^ 64 ≤ MSG_BUF_LEN ∧ SysctlArgs.written a ≤ MSG_BUF_LEN
  | .ioctl com (.memory offset clen) =>
    MSG_BUF_LEN < (iocparmLen (ioctlCommand com) + clen) % 2 ^ 64 ∨
      offset + 8 ≤ MSG_BUF_LEN ∧ iocparmLen (ioctlCommand com) + clen ≤ MSG_BUF_LEN
  | .ioctl _ _ => True
  | .rtioctl len => len = 0 ∨ MSG_BUF_LEN < len
  | .ngctl c => MSG_BUF_LEN < c.size % 2 ^ 64 ∨ NgCall.Fits c
  | .ipfwGet _ optlen => IpfwSafe (optlen.getD 0)
  | .ipfwSet optlen => IpfwSafe optlen
  | _ => True

instance : DecidablePred NgCall.Fits := by
  intro c
  cases c with
  | recvfrom len fromlen => exact inferInstanceAs (Decidable (_ ∧ _))
  | _ => exact inferInstanceAs (Decidable (_ ≤ _))

instance : DecidablePred IpfwSafe := fun _ => inferInstanceAs (Decidable (_ ∨ _))

instance : DecidablePred CallSafe := by
  intro c
  cases c with
  | ioctl com more =>
    cases more with
    | memory offset clen => exact inferInstanceAs (Decidable (_ ∨ _))
    | _ => exact inferInstanceAs (Decidable True)
  | sysctl a => exact inferInstanceAs (Decidable (_ ∨ _))
  | rtioctl len => exact inferInstanceAs (Decidable (_ ∨ _))
  | ngctl c => exact inferInstanceAs (Decidable (_ ∨ _))
  | ipfwGet optval optlen => exact inferInstanceAs (Decidable (IpfwSafe _))
  | ipfwSet optlen => exact inferInstanceAs (Decidable (IpfwSafe _))
  | _ => exact inferInstanceAs (Decidable True)

/-- What a call has made of the message `m`, when the next buffer of `rte_malloc` is the one after
`extras`. -/
structure MarshalledSo (extras : List ℕ) (m : ℕ) (f : Marshalled α) : Prop where
  restorable : MsgRestorable f.msg m
  type : f.msg.msg_type < FF_MSG_NUM
  writes : ∀ w ∈ f.writes, MsgWrite.Within (extras ++ f.extra.toList) m w
  plain : f.extra = none → f.msg.original_buf = none
  attached : ∀ n, f.extra = some n →
    f.send = true ∧ f.msg.original_buf ≠ none ∧ f.msg.buf_addr = .extra extras.length 0

/-- INTERNAL: A call that leaves the buffers as they are. -/
theorem MarshalledSo.of_intact {msg' : FfMsg α} {extras : List ℕ} {writes : List MsgWrite} {send : Bool}
    (h : MsgIntact msg m) (haddr : msg'.buf_addr = msg.buf_addr) (hlen : msg'.buf_len = msg.buf_len)
    (horig : msg'.original_buf = msg.original_buf) (htype : msg'.msg_type < FF_MSG_NUM)
    (hwrites : ∀ w ∈ writes, ∃ off, w.ptr = .embedded m off ∧
      (w.len = 0 ∨ off + w.len ≤ MSG_BUF_LEN)) :
    MarshalledSo extras m ⟨msg', writes, send, none⟩ := by
  have hnone : msg'.original_buf = none := horig.trans h.original_buf
  refine ⟨?_, htype, ?_, fun _ => hnone, ?_⟩
  · rw [MsgRestorable, hnone]
    exact ⟨haddr.trans h.buf_addr, hlen.trans h.buf_len⟩
  · intro w hw
    obtain ⟨off, hptr, hfits⟩ := hwrites w hw
    rw [MsgWrite.Within, hptr]
    exact hfits.imp_right fun hle => ⟨rfl, hle⟩
  · intro n hn
    cases hn

/-- INTERNAL: The writes of `sysctl` follow one another. -/
theorem sysctl_writes_fit (a : SysctlArgs) (base : MsgPtr) :
    ∀ w ∈ a.writes base, ∃ off, w.ptr = base.add off ∧ off + w.len ≤ SysctlArgs.written a := by
  have hself : base = base.add 0 := by cases base <;> rfl
  obtain ⟨newlen, hnewlen⟩ : ∃ n, n = if a.new then a.newlen else 0 := ⟨_, rfl⟩
  intro w hw
  rw [SysctlArgs.writes, ← hnewlen] at hw
  rw [SysctlArgs.written, ← hnewlen]
  rcases List.mem_cons.mp hw with rfl | hw
  · refine ⟨0, hself, ?_⟩
    dsimp only
    omega
  rcases List.mem_append.mp hw with hw | hw
  · by_cases hzero : newlen = 0
    · rw [if_pos hzero] at hw
      cases hw
    · rw [if_neg hzero] at hw
      rw [List.mem_singleton.mp hw]
      refine ⟨a.namelen * 4, rfl, ?_⟩
      dsimp only
      omega
  · cases holdlenp : a.oldlenp with
    | none =>
      rw [holdlenp] at hw
      cases hw
    | some oldlen =>
      rw [holdlenp] at hw
      rcases List.mem_cons.mp hw with rfl | hw
      · refine ⟨a.namelen * 4 + newlen, rfl, ?_⟩
        dsimp only
        omega
      · by_cases hold : a.old
        · rw [if_pos hold] at hw
          rw [List.mem_singleton.mp hw]
          refine ⟨a.namelen * 4 + newlen + 8, rfl, ?_⟩
          dsimp only
          rw [if_pos hold]
          omega
        · rw [if_neg hold] at hw
          cases hw

theorem marshalSysctl_so (h : MsgIntact msg m) (htype : msg.msg_type < FF_MSG_NUM) (extras : List ℕ)
    (granted : Bool) {a : SysctlArgs} (hsafe : CallSafe (.sysctl a)) :
    MarshalledSo extras m (marshalSysctl extras.length granted a msg) := by
  have hlen := h.buf_len
  rw [CallSafe] at hsafe
  obtain ⟨total_len, htotal⟩ : ∃ n, n = a.size % 2 ^ 64 := ⟨_, rfl⟩
  rw [← htotal] at hsafe
  rw [marshalSysctl]
  dsimp only
  rw [← htotal]
  split
  · split
    · refine ⟨?_, (by decide : FF_SYSCTL < FF_MSG_NUM), ?_, ?_, ?_⟩
      · rw [MsgRestorable]
        exact ⟨h.buf_addr, h.buf_len⟩
      · intro w hw
        obtain ⟨off, hptr, hfits⟩ := sysctl_writes_fit a _ w hw
        have hget : (extras ++ [total_len]).getD extras.length 0 = total_len := by
          rw [List.getD_append_right _ _ _ _ (Nat.le_refl _), Nat.sub_self]
          rfl
        rw [MsgWrite.Within, hptr]
        refine .inr ?_
        show 0 + off + w.len ≤ (extras ++ [total_len]).getD extras.length 0
        rw [hget]
        omega
      · intro hnone
        cases hnone
      · intro n _
        exact ⟨rfl, Option.some_ne_none _, rfl⟩
    · exact MarshalledSo.of_intact h rfl rfl rfl htype (by simp)
  · rename_i hle
    refine MarshalledSo.of_intact h rfl rfl rfl (by decide : FF_SYSCTL < FF_MSG_NUM) ?_
    intro w hw
    obtain ⟨off, hptr, hfits⟩ := sysctl_writes_fit a _ w hw
    rw [h.buf_addr] at hptr
    exact ⟨0 + off, hptr, by omega⟩

theorem marshalIoctl_so (h : MsgIntact msg m) (htype : msg.msg_type < FF_MSG_NUM) (extras : List ℕ)
    (inet6 : Bool) (com : ℕ) {more : IoctlMore} (hmore : ∀ offset clen, more = .memory offset clen →
      MSG_BUF_LEN < (iocparmLen com + clen) % 2 ^ 64 ∨
        offset + 8 ≤ MSG_BUF_LEN ∧ iocparmLen com + clen ≤ MSG_BUF_LEN) :
    MarshalledSo extras m (marshalIoctl inet6 com more msg) := by
  have hlen := h.buf_len
  rw [marshalIoctl]
  dsimp only
  split
  · exact MarshalledSo.of_intact h rfl rfl rfl htype (by simp)
  rename_i hsize
  have hdata : ∀ w : MsgWrite, w = ⟨msg.buf_addr, iocparmLen com⟩ →
      ∃ off, w.ptr = .embedded m off ∧ (w.len = 0 ∨ off + w.len ≤ MSG_BUF_LEN) := by
    rintro w rfl
    exact ⟨0, h.buf_addr, by dsimp only; omega⟩
  split
  · exact MarshalledSo.of_intact h rfl rfl rfl htype (by simp)
  · rename_i type hsome
    have hknown : type < FF_MSG_NUM := by
      split at hsome
      · obtain rfl := Option.some.inj hsome
        decide
      · split at hsome
        · obtain rfl := Option.some.inj hsome
          decide
        · cases hsome
    split
    · rename_i offset clen
      have hroom := hmore offset clen rfl
      split
      · refine MarshalledSo.of_intact h rfl rfl rfl hknown fun w hw => ?_
        exact hdata w (List.mem_singleton.mp hw)
      · rename_i hfits
        refine MarshalledSo.of_intact h rfl rfl rfl hknown fun w hw => ?_
        rcases List.mem_cons.mp hw with hw | hw
        · exact hdata w hw
        rcases List.mem_cons.mp hw with rfl | hw
        · refine ⟨0 + offset, ?_, by dsimp only; omega⟩
          dsimp only
          rw [h.buf_addr]
          rfl
        · rw [List.mem_singleton.mp hw]
          refine ⟨0 + iocparmLen com, ?_, by dsimp only; omega⟩
          dsimp only
          rw [h.buf_addr]
          rfl
    · refine MarshalledSo.of_intact h rfl rfl rfl hknown fun w hw => ?_
      exact hdata w (List.mem_singleton.mp hw)

theorem marshalRtioctl_so (h : MsgIntact msg m) (htype : msg.msg_type < FF_MSG_NUM) (extras : List ℕ) {len : ℕ}
    (hfits : len = 0 ∨ MSG_BUF_LEN < len) : MarshalledSo extras m (marshalRtioctl len msg) := by
  have hlen := h.buf_len
  rw [marshalRtioctl]
  split
  · exact MarshalledSo.of_intact h rfl rfl rfl htype (by simp)
  · rename_i hle
    obtain rfl : len = 0 := by omega
    have hsame : msg.buf_addr.add 0 = msg.buf_addr := by
      rw [h.buf_addr]
      rfl
    refine MarshalledSo.of_intact h hsame rfl rfl (by decide : FF_ROUTE < FF_MSG_NUM) fun w hw => ?_
    rw [List.mem_singleton.mp hw]
    exact ⟨0, h.buf_addr, .inl rfl⟩

/-- INTERNAL: The writes of a call of `ngctl` that fits stay in the buffer. -/
theorem ngctl_writes_fit {c : NgCall} (hfits : NgCall.Fits c) (m : ℕ) :
    ∀ w ∈ c.writes (.embedded m 0), ∃ off, w.ptr = .embedded m off ∧
      (w.len = 0 ∨ off + w.len ≤ MSG_BUF_LEN) := by
  cases c with
  | recvfrom len fromlen =>
    rw [NgCall.Fits] at hfits
    rw [NgCall.writes]
    simp only [List.forall_mem_cons, MsgPtr.add, MsgPtr.embedded.injEq, true_and, exists_eq_left']
    exact ⟨by omega, by omega, by omega, by omega, by simp⟩
  | sendto len tolen =>
    have hsize : 48 + len + tolen ≤ MSG_BUF_LEN := hfits
    rw [NgCall.writes]
    simp only [List.forall_mem_cons, MsgPtr.add, MsgPtr.embedded.injEq, true_and, exists_eq_left']
    exact ⟨by omega, by omega, by omega, by simp⟩
  | bind namelen | connect namelen =>
    have hsize : 24 + namelen ≤ MSG_BUF_LEN := hfits
    rw [NgCall.writes]
    simp only [List.forall_mem_cons, MsgPtr.add, MsgPtr.embedded.injEq, true_and, exists_eq_left']
    exact ⟨by omega, by omega, by simp⟩
  | socket | close =>
    rw [NgCall.writes]
    simp only [List.forall_mem_cons, MsgPtr.embedded.injEq, true_and, exists_eq_left']
    exact ⟨.inr (by decide), by simp⟩

theorem marshalNgctl_so (h : MsgIntact msg m) (htype : msg.msg_type < FF_MSG_NUM) (extras : List ℕ) {c : NgCall}
    (hsafe : MSG_BUF_LEN < c.size % 2 ^ 64 ∨ NgCall.Fits c) : MarshalledSo extras m (marshalNgctl c msg) := by
  have hlen := h.buf_len
  rw [marshalNgctl]
  split
  · exact MarshalledSo.of_intact h rfl rfl rfl htype (by simp)
  · rename_i hle
    refine MarshalledSo.of_intact h rfl rfl rfl (by decide : FF_NGCTL < FF_MSG_NUM) ?_
    rw [h.buf_addr]
    exact ngctl_writes_fit (hsafe.resolve_left (by omega)) m

theorem marshalIpfw_so (h : MsgIntact msg m) (htype : msg.msg_type < FF_MSG_NUM) (extras : List ℕ) {optlen : ℕ}
    (hsafe : IpfwSafe optlen) :
    MarshalledSo extras m (marshalIpfw optlen msg) := by
  have hlen := h.buf_len
  rw [marshalIpfw]
  split
  · exact MarshalledSo.of_intact h rfl rfl rfl htype (by simp)
  · rename_i hle
    have hfits : optlen + 4 ≤ MSG_BUF_LEN := hsafe.resolve_left (by omega)
    refine MarshalledSo.of_intact h rfl rfl rfl (by decide : FF_IPFW_CTL < FF_MSG_NUM) ?_
    rw [h.buf_addr]
    simp only [List.forall_mem_cons, MsgPtr.add, MsgPtr.embedded.injEq, true_and, exists_eq_left']
    exact ⟨by omega, by omega, by simp⟩

/-- **What a call of a tool does with an intact message.** -/
theorem marshal_so (h : MsgIntact msg m) (htype : msg.msg_type < FF_MSG_NUM) (extras : List ℕ)
    (inet6 granted : Bool) {call : ToolCall} (hsafe : CallSafe call) :
    MarshalledSo extras m (call.marshal inet6 extras.length granted msg) := by
  cases call with
  | sysctl a => exact marshalSysctl_so h htype extras granted hsafe
  | ioctl com more =>
    refine marshalIoctl_so h htype extras inet6 _ fun offset clen hmore => ?_
    subst hmore
    exact hsafe
  | rtioctl len => exact marshalRtioctl_so h htype extras hsafe
  | ngctl c => exact marshalNgctl_so h htype extras hsafe
  | ipfwGet optval optlen => exact marshalIpfw_so h htype extras hsafe
  | ipfwSet optlen => exact marshalIpfw_so h htype extras hsafe
  | top =>
    exact MarshalledSo.of_intact h rfl rfl rfl (by decide : FF_TOP < FF_MSG_NUM) (by simp)
  | traffic =>
    exact MarshalledSo.of_intact h rfl rfl rfl (by decide : FF_TRAFFIC < FF_MSG_NUM) (by simp)
  | knictl =>
    exact MarshalledSo.of_intact h rfl rfl rfl (by decide : FF_KNICTL < FF_MSG_NUM) (by simp)

end FStack.Analysis
