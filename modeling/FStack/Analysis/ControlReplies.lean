import FStack.Model.FfMsg
import Mathlib.Data.List.Basic

/-!
# Replies to control messages

Whatever a handler answers, it leaves the rings, the pool, the other messages and the buffer of its own message
alone (`Answered`).  So where a message goes depends on its type and on the ring of that type only, and what it
looks like in the pool on what the tool has left in it (`handle_msg_right_iff`).
-/

set_option autoImplicit false

namespace FStack.Analysis

open FStack.Model

variable {σ α : Type}

/-- The buffer behind the message `m` is its own, as `ff_msg_init` has left it. -/
structure MsgIntact (msg : FfMsg α) (m : ℕ) : Prop where
  buf_addr : msg.buf_addr = .embedded m 0
  buf_len : msg.buf_len = MSG_BUF_LEN
  original_buf : msg.original_buf = none

/-- Giving the message `m` back makes its buffer what it was. -/
def MsgRestorable (msg : FfMsg α) (m : ℕ) : Prop :=
  match msg.original_buf with
  | none => msg.buf_addr = .embedded m 0 ∧ msg.buf_len = MSG_BUF_LEN
  | some original => original = .embedded m 0 ∧ msg.original_buf_len = MSG_BUF_LEN

instance (msg : FfMsg α) (m : ℕ) : Decidable (MsgRestorable msg m) := by
  unfold MsgRestorable
  split <;> infer_instance

/-! ## Handlers -/

/-- What a handler leaves as it is. -/
structure Answered (st st' : IpcState σ α) (m : ℕ) : Prop where
  ring : st'.ring = st.ring
  pool : st'.pool = st.pool
  freed : st'.freed = st.freed
  others : ∀ x, x ≠ m → st'.msgs x = st.msgs x
  msg_type : (st'.msgs m).msg_type = (st.msgs m).msg_type
  buf_addr : (st'.msgs m).buf_addr = (st.msgs m).buf_addr
  buf_len : (st'.msgs m).buf_len = (st.msgs m).buf_len
  original_buf : (st'.msgs m).original_buf = (st.msgs m).original_buf
  original_buf_len : (st'.msgs m).original_buf_len = (st.msgs m).original_buf_len

theorem Answered.trans {st st' st'' : IpcState σ α} {m : ℕ} (h : Answered st st' m)
    (h' : Answered st' st'' m) : Answered st st'' m where
  ring := h'.ring.trans h.ring
  pool := h'.pool.trans h.pool
  freed := h'.freed.trans h.freed
  others := fun x hx => (h'.others x hx).trans (h.others x hx)
  msg_type := h'.msg_type.trans h.msg_type
  buf_addr := h'.buf_addr.trans h.buf_addr
  buf_len := h'.buf_len.trans h.buf_len
  original_buf := h'.original_buf.trans h.original_buf
  original_buf_len := h'.original_buf_len.trans h.original_buf_len

theorem IpcState.setMsg_self (st : IpcState σ α) (m : ℕ) (msg : FfMsg α) :
    (st.setMsg m msg).msgs m = msg :=
  Function.update_self _ _ _

theorem IpcState.setMsg_of_ne (st : IpcState σ α) {m x : ℕ} (msg : FfMsg α) (h : x ≠ m) :
    (st.setMsg m msg).msgs x = st.msgs x :=
  Function.update_of_ne h _ _

/-- INTERNAL: Storing a result and arguments. -/
theorem answered_setMsg (st : IpcState σ α) (m : ℕ) (result : ℤ) (args : MsgArgs α) :
    Answered st (st.setMsg m { st.msgs m with result := result, args := args }) m := by
  refine ⟨rfl, rfl, rfl, fun x hx => IpcState.setMsg_of_ne st _ hx, ?_, ?_, ?_, ?_, ?_⟩ <;>
    rw [IpcState.setMsg_self]

theorem answered_stackMsg (c : StackCalls σ α) (call : σ → α → σ × α × ℤ) (st : IpcState σ α)
    (m : ℕ) : Answered st (stackMsg c call st m).1 m := by
  have hset := answered_setMsg { st with stack := (call st.stack (st.msgs m).args.stack).1 } m
    (msgResult c (call st.stack (st.msgs m).args.stack).1 (call st.stack (st.msgs m).args.stack).2.2)
    { (st.msgs m).args with stack := (call st.stack (st.msgs m).args.stack).2.1 }
  exact ⟨hset.ring, hset.pool, hset.freed, hset.others, hset.msg_type, hset.buf_addr, hset.buf_len,
    hset.original_buf, hset.original_buf_len⟩

theorem answered_ngctl (c : StackCalls σ α) (st : IpcState σ α) (m : ℕ) :
    Answered st (handleNgctlMsg c st m) m := by
  have hcall := answered_stackMsg c c.ff_ngctl st m
  rw [handleNgctlMsg]
  cases hret : stackMsg c c.ff_ngctl st m with
  | mk st' ret =>
    rw [hret] at hcall
    dsimp only
    by_cases hneg : ret < 0
    · rw [if_pos hneg]
      exact hcall
    · rw [if_neg hneg]
      exact hcall.trans (answered_setMsg st' m _ _)

theorem answered_knictl (st : IpcState σ α) (m : ℕ) : Answered st (handleKnictlMsg st m) m := by
  rw [handleKnictlMsg]
  dsimp only
  split
  · split
    · have hset := answered_setMsg { st with knictl_action := (st.msgs m).args.kni_action } m 0
        (st.msgs m).args
      exact ⟨hset.ring, hset.pool, hset.freed, hset.others, hset.msg_type, hset.buf_addr,
        hset.buf_len, hset.original_buf, hset.original_buf_len⟩
    · exact answered_setMsg st m _ _
  · split
    · exact answered_setMsg st m _ _
    · exact answered_setMsg st m _ _

/-- **No handler touches more than the result and the arguments.** -/
theorem answered_answerMsg (b : MsgBuild) (c : StackCalls σ α) (st : IpcState σ α) (m : ℕ) :
    Answered st (answerMsg b c st m) m := by
  rw [answerMsg]
  split
  · exact answered_stackMsg c _ st m
  split
  · exact answered_stackMsg c _ st m
  split
  · exact answered_stackMsg c _ st m
  split
  · exact answered_setMsg st m _ _
  split
  · exact answered_ngctl c st m
  split
  · exact answered_stackMsg c _ st m
  split
  · exact answered_setMsg st m _ _
  split
  · exact answered_knictl st m
  · exact answered_setMsg st m _ _

/-! ## Where a message goes -/

/-- The message `m` is in the out-ring of its type, and nowhere else. -/
structure ReplyDelivered (st st' : IpcState σ α) (proc m : ℕ) : Prop where
  index : FF_SYSCTL ≤ (st.msgs m).msg_type ∧ (st.msgs m).msg_type < FF_MSG_NUM
  ring : st'.ring = Function.update st.ring proc (Function.update (st.ring proc) (st.msgs m).msg_type
    (st.ring proc (st.msgs m).msg_type ++ [m]))
  pool : st'.pool = st.pool

/-- The message `m` is back in the pool, with its own buffer, and nowhere else. -/
structure ReplyGivenBack (st st' : IpcState σ α) (m : ℕ) : Prop where
  ring : st'.ring = st.ring
  pool : st'.pool = m :: st.pool
  intact : MsgIntact (st'.msgs m) m

/-- What is asked of `handle_msg`. -/
def HandleMsgRight (b : MsgBuild) (c : StackCalls σ α) (proc : ℕ) (st : IpcState σ α) (m : ℕ) : Prop :=
  ∃ st', handleMsg b c proc st m = some st' ∧ (ReplyDelivered st st' proc m ∨ ReplyGivenBack st st' m) ∧
    ∀ x, x ≠ m → st'.msgs x = st.msgs x

/-- When it does that. -/
def HandleMsgSafe (proc : ℕ) (st : IpcState σ α) (m : ℕ) : Prop :=
  (st.msgs m).msg_type < FF_MSG_NUM ∧
    if (st.ring proc (st.msgs m).msg_type).length < MSG_RING_CAPACITY then
      (st.msgs m).msg_type ≠ FF_UNKNOWN
    else MsgRestorable (st.msgs m) m

/-- INTERNAL: A message that is given back is intact exactly when it is restorable. -/
theorem release_intact_iff (st : IpcState σ α) (m : ℕ) :
    MsgIntact ((st.release m).msgs m) m ↔ MsgRestorable (st.msgs m) m := by
  rw [IpcState.release, MsgRestorable]
  dsimp only
  cases horig : (st.msgs m).original_buf with
  | none =>
    exact ⟨fun h => ⟨h.buf_addr, h.buf_len⟩, fun h => ⟨h.1, h.2, horig⟩⟩
  | some original =>
    have hmsg : (st.setMsg m { st.msgs m with
        buf_addr := original, buf_len := (st.msgs m).original_buf_len, original_buf := none }).msgs m =
        { st.msgs m with
          buf_addr := original, buf_len := (st.msgs m).original_buf_len, original_buf := none } :=
      IpcState.setMsg_self st m _
    dsimp only
    rw [hmsg]
    exact ⟨fun h => ⟨h.buf_addr, h.buf_len⟩, fun h => ⟨h.1, h.2, rfl⟩⟩

theorem release_ring (st : IpcState σ α) (m : ℕ) : (st.release m).ring = st.ring := by
  rw [IpcState.release]
  dsimp only
  split <;> rfl

theorem release_pool (st : IpcState σ α) (m : ℕ) : (st.release m).pool = m :: st.pool := by
  rw [IpcState.release]
  dsimp only
  split <;> rfl

theorem mem_release_pool (st : IpcState σ α) (m : ℕ) : m ∈ (st.release m).pool := by
  rw [release_pool]
  exact List.mem_cons_self

theorem release_others (st : IpcState σ α) {m x : ℕ} (hx : x ≠ m) :
    (st.release m).msgs x = st.msgs x := by
  rw [IpcState.release]
  dsimp only
  split
  · exact IpcState.setMsg_of_ne st _ hx
  · rfl

/-- INTERNAL: Handlers leave it alone whether a message is restorable. -/
theorem Answered.restorable_iff {st st' : IpcState σ α} {m : ℕ} (h : Answered st st' m) :
    MsgRestorable (st'.msgs m) m ↔ MsgRestorable (st.msgs m) m := by
  rw [MsgRestorable, MsgRestorable, h.original_buf, h.buf_addr, h.buf_len, h.original_buf_len]

/-- **`handle_msg` does right exactly when** the type of the message is one of the enumeration, and the
message is restorable if it finds its ring full, and has a type at all if it does not. -/
theorem handle_msg_right_iff (b : MsgBuild) (c : StackCalls σ α) (proc : ℕ) (st : IpcState σ α)
    (m : ℕ) : HandleMsgRight b c proc st m ↔ HandleMsgSafe proc st m := by
  have hans := answered_answerMsg b c st m
  rw [HandleMsgRight, HandleMsgSafe, handleMsg]
  rw [hans.msg_type, IpcState.enqueue, hans.ring]
  by_cases htype : (st.msgs m).msg_type < FF_MSG_NUM
  · rw [if_pos htype]
    by_cases hroom : (st.ring proc (st.msgs m).msg_type).length < MSG_RING_CAPACITY
    · rw [if_pos hroom, if_pos hroom]
      constructor
      · rintro ⟨st', hst', hplace, -⟩
        refine ⟨htype, fun hunknown => ?_⟩
        rcases hplace with hdel | hback
        · have hindex := hdel.index.1
          rw [hunknown] at hindex
          exact absurd hindex (by decide)
        · have hpool := hback.pool
          rw [← Option.some.inj hst'] at hpool
          have hsame : (answerMsg b c st m).pool = m :: st.pool := hpool
          rw [hans.pool] at hsame
          exact absurd hsame.symm (List.cons_ne_self m st.pool)
      · rintro ⟨-, hknown⟩
        refine ⟨_, rfl, Or.inl ⟨⟨Nat.pos_of_ne_zero hknown, htype⟩, rfl, hans.pool⟩, hans.others⟩
    · rw [if_neg hroom, if_neg hroom]
      dsimp only
      rw [← hans.restorable_iff, ← release_intact_iff]
      constructor
      · rintro ⟨st', hst', hplace, -⟩
        obtain rfl := Option.some.inj hst'
        rcases hplace with hdel | hback
        · have hpool := hdel.pool
          rw [release_pool, hans.pool] at hpool
          exact absurd hpool (List.cons_ne_self m st.pool)
        · exact ⟨htype, hback.intact⟩
      · rintro ⟨-, hintact⟩
        refine ⟨_, rfl, Or.inr ⟨?_, ?_, hintact⟩, fun x hx => ?_⟩
        · rw [release_ring, hans.ring]
        · rw [release_pool, hans.pool]
        · rw [release_others _ hx, hans.others x hx]
  · rw [if_neg htype]
    constructor
    · rintro ⟨st', hst', -⟩
      cases hst'
    · rintro ⟨hlt, -⟩
      exact absurd hlt htype

def emptyArgs : MsgArgs Unit :=
  ⟨(), 0, 0, ⟨0, 0, 0, 0, 0⟩, ⟨0, 0, 0, 0, 0, 0⟩, 0, 0⟩

/-- Messages as they are after initialization, and empty rings. -/
def freshIpc : IpcState Unit Unit :=
  { msgs := fun m => ⟨FF_UNKNOWN, 0, MSG_BUF_LEN, .embedded m 0, none, 0, emptyArgs⟩
    ring := fun _ _ => []
    pool := []
    freed := []
    stack := ()
    top := ⟨0, 0, 0, 0, 0⟩
    traffic := ⟨0, 0, 0, 0, 0, 0⟩
    knictl_action := 0 }

/-- A stack of which every call succeeds. -/
def calmStack : StackCalls Unit Unit :=
  { errno := fun _ => 0
    setErrno := fun stack _ => stack
    ff_socket := fun stack _ => (stack, 3)
    ff_close := fun stack _ => stack
    ff_sysctl := fun stack args => (stack, args, 0)
    ff_ioctl_freebsd := fun stack _ args => (stack, args, 0)
    ff_rtioctl := fun stack args => (stack, args, 0)
    ff_ngctl := fun stack args => (stack, args, 0)
    ff_getsockopt_freebsd := fun stack _ args => (stack, args, 0)
    ff_setsockopt_freebsd := fun stack _ args => (stack, args, 0) }

/-- A message without a type is answered into the in-ring. -/
theorem not_handle_msg_right :
    ¬∀ (b : MsgBuild) (c : StackCalls Unit Unit) (proc : ℕ) (st : IpcState Unit Unit) (m : ℕ),
      HandleMsgRight b c proc st m := by
  intro h
  obtain ⟨st', hst', hplace, -⟩ := h ⟨true, true, true, true⟩ calmStack 0 freshIpc 5
  rcases hplace with hdel | hback
  · have hindex : FF_SYSCTL ≤ FF_UNKNOWN := hdel.index.1
    exact absurd hindex (by decide)
  · have hring : st'.ring 0 0 = [] := congrFun (congrFun hback.ring 0) 0
    rw [← Option.some.inj hst'] at hring
    cases hring

end FStack.Analysis
