import FStack.Model.MsgIov

/-!
# The caller's iovec after a call

The array is written back on the way out of a call that succeeds, and only there.  A call that fails
in the stack leaves it where the stack has moved it to, which is where it was only if no byte has
been moved (`uiomoveIov_eq_self_iff`).  `iov_kept_iff` says when the array survives a call.
-/

set_option autoImplicit false

namespace FStack.Analysis

open FStack.Model

/-- The array and the fields that refer to it are what they were. -/
def IovKept (st st' : MsgIov) : Prop :=
  st'.iov = st.iov ∧ st'.msg_iov = st.msg_iov ∧ st'.msg_iovlen = st.msg_iovlen

/-- The stack finds no byte to move. -/
def NothingMoved (st : MsgIov) (answer : StackAnswer) : Prop :=
  answer.moved = 0 ∨ ∀ i < st.msg_iovlen, (st.iov i).iov_len % 2 ^ 32 = 0

/-- The call does not reach the stack: the array is too long, or there is no memory for the control
message, or it is not translated. -/
def NotLent (st : MsgIov) : MsgCall → Prop
  | .sendmsg none _ => UIO_MAXIOV < st.msg_iovlen
  | .sendmsg (some c) _ => UIO_MAXIOV < st.msg_iovlen ∨ c.allocated = false ∨ c.ret < 0
  | .recvmsg _ => UIO_MAXIOV < st.msg_iovlen

/-- What the stack does in a call that reaches it. -/
def answerOf : MsgCall → StackAnswer
  | .sendmsg _ answer => answer
  | .recvmsg answer => answer

/-- The array comes back: it has not been lent, or the stack succeeds, or it has moved nothing. -/
def IovSafe (st : MsgIov) (c : MsgCall) : Prop :=
  NotLent st c ∨ (answerOf c).rc = 0 ∨ NothingMoved st (answerOf c)

/-! ## Moving and writing back -/

/-- INTERNAL: The entries in front of the first one and behind the last one are not touched. -/
theorem uiomoveIov_of_outside (left i n : ℕ) (iov : ℕ → IoVec) {j : ℕ} (hj : j < i ∨ i + left ≤ j) :
    uiomoveIov left i n iov j = iov j := by
  induction left generalizing i n iov with
  | zero => rfl
  | succ left ih =>
    rw [uiomoveIov, ih _ _ _ (by omega), Function.update_of_ne (by omega)]

/-- **The array stays as it is exactly when there is nothing to move.** -/
theorem uiomoveIov_eq_self_iff (left i n : ℕ) (iov : ℕ → IoVec) :
    uiomoveIov left i n iov = iov ↔
      n = 0 ∨ ∀ j, i ≤ j → j < i + left → (iov j).iov_len % 2 ^ 32 = 0 := by
  induction left generalizing i n iov with
  | zero =>
    refine ⟨fun _ => Or.inr ?_, fun _ => rfl⟩
    intro j hij hj
    omega
  | succ left ih =>
    generalize hcnt : min ((iov i).iov_len % 2 ^ 32) n = cnt
    have hround : uiomoveIov (left + 1) i n iov = uiomoveIov left (i + 1) (n - cnt)
        (Function.update iov i ⟨(iov i).iov_base + cnt, (iov i).iov_len - cnt⟩) := by
      rw [uiomoveIov, hcnt]
    rw [hround]
    by_cases hzero : cnt = 0
    · -- this entry has nothing to move
      have hsame : Function.update iov i ⟨(iov i).iov_base + cnt, (iov i).iov_len - cnt⟩ = iov := by
        rw [hzero]
        exact Function.update_eq_self i iov
      rw [hsame, hzero, Nat.sub_zero, ih]
      apply or_congr_right'
      intro hn
      constructor
      · intro h j hij hj
        by_cases hji : j = i
        · subst hji
          omega
        · exact h j (by omega) (by omega)
      · intro h j hij hj
        exact h j (by omega) (by omega)
    · -- this entry has changed, and stays so
      constructor
      · intro h
        have hi := congrFun h i
        rw [uiomoveIov_of_outside _ _ _ _ (Or.inl (Nat.lt_succ_self i)), Function.update_self] at hi
        have hbase := congrArg IoVec.iov_base hi
        dsimp only at hbase
        omega
      · intro h
        rcases h with h | h
        · omega
        · have hlen := h i (Nat.le_refl i) (by omega)
          omega

/-- INTERNAL: Writing back undoes whatever the stack has moved. -/
theorem copyIov_uiomoveIov (len n : ℕ) (iov tmp : ℕ → IoVec) :
    copyIov len (uiomoveIov len 0 n iov) (copyIov len tmp iov) = iov := by
  funext i
  by_cases hi : i < len
  · simp only [copyIov, if_pos hi]
  · simp only [copyIov, if_neg hi]
    exact uiomoveIov_of_outside _ _ _ _ (by omega)

/-! ## The calls -/

/-- **A loan of the array**: it comes back unless the stack fails after moving something. -/
theorem lendIov_kept_iff (st : MsgIov) (cmsg : Option ℤ) (answer : StackAnswer) :
    IovKept st (lendIov st cmsg answer).1 ↔
      (UIO_MAXIOV < st.msg_iovlen ∨ ∃ ret ∈ cmsg, ret < 0) ∨ answer.rc = 0 ∨
        NothingMoved st answer := by
  by_cases hlong : UIO_MAXIOV < st.msg_iovlen
  · have hfail : linux2freebsdMsghdr st cmsg =
        ({ st with msg_iovlen_tmp := st.msg_iovlen }, none) := if_pos hlong
    rw [lendIov, hfail]
    exact iff_of_true ⟨rfl, rfl, rfl⟩ (Or.inl (Or.inl hlong))
  · let saved : MsgIov := { st with
      msg_iovlen_tmp := st.msg_iovlen
      msg_iov_tmp := copyIov st.msg_iovlen st.msg_iov_tmp st.iov }
    by_cases hcmsg : ∃ ret ∈ cmsg, ret < 0
    · have hfail : linux2freebsdMsghdr st cmsg = (saved, none) := by
        obtain ⟨ret, hmem, hneg⟩ := hcmsg
        rw [Option.mem_def] at hmem
        subst hmem
        rw [linux2freebsdMsghdr]
        simp only [if_neg hlong, if_pos hneg]
        rfl
      rw [lendIov, hfail]
      exact iff_of_true ⟨rfl, rfl, rfl⟩ (Or.inl (Or.inr hcmsg))
    · have hlent : linux2freebsdMsghdr st cmsg = (saved, some ⟨st.msg_iov, st.msg_iovlen⟩) := by
        rw [linux2freebsdMsghdr]
        cases cmsg with
        | none =>
          simp only [if_neg hlong]
          rfl
        | some ret =>
          have hret : ¬ ret < 0 := fun h => hcmsg ⟨ret, rfl, h⟩
          simp only [if_neg hlong, if_neg hret]
          rfl
      rw [lendIov, hlent, or_iff_right (not_or.mpr ⟨hlong, hcmsg⟩)]
      dsimp only
      by_cases hrc : answer.rc = 0
      · rw [if_neg (not_not.mpr hrc)]
        exact iff_of_true ⟨copyIov_uiomoveIov _ _ _ _, rfl, rfl⟩ (Or.inl hrc)
      · rw [if_pos hrc, or_iff_right hrc]
        have hmoved := uiomoveIov_eq_self_iff st.msg_iovlen 0 answer.moved st.iov
        rw [Nat.zero_add] at hmoved
        constructor
        · intro hkept
          exact (hmoved.mp hkept.1).imp_right fun h i hi => h i (Nat.zero_le i) hi
        · intro hnothing
          exact ⟨hmoved.mpr (hnothing.imp_right fun h j _ hj => h j hj), rfl, rfl⟩

/-- **When the caller's array survives a call** of `ff_sendmsg` or `ff_recvmsg`. -/
theorem iov_kept_iff (st : MsgIov) (c : MsgCall) :
    IovKept st (msgCall st c).1 ↔ IovSafe st c := by
  cases c with
  | recvmsg answer =>
    rw [msgCall, ffRecvmsg, lendIov_kept_iff]
    simp [IovSafe, NotLent, answerOf]
  | sendmsg control answer =>
    cases control with
    | none =>
      rw [msgCall, ffSendmsg, lendIov_kept_iff]
      simp [IovSafe, NotLent, answerOf]
    | some c =>
      rw [msgCall, ffSendmsg]
      by_cases halloc : c.allocated = false
      · rw [if_pos halloc]
        exact iff_of_true ⟨rfl, rfl, rfl⟩ (Or.inl (Or.inr (Or.inl halloc)))
      · rw [if_neg halloc, lendIov_kept_iff]
        simp [IovSafe, NotLent, answerOf, halloc]

/-- A datagram of ten bytes that the stack has taken and cannot send: the entry has no bytes left. -/
theorem not_iov_kept_unreachable :
    ¬ ∀ (st : MsgIov) (c : MsgCall), st.msg_iovlen ≤ UIO_MAXIOV → IovKept st (msgCall st c).1 := by
  intro h
  have hkept := h ⟨fun _ => ⟨4096, 10⟩, 512, 1, fun _ => ⟨0, 0⟩, 0⟩ (.sendmsg none ⟨10, 65⟩) (by decide)
  exact absurd (congrFun hkept.1 0) (by decide)

end FStack.Analysis
