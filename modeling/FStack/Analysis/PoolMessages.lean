import FStack.Analysis.MarshalledMessages
import FStack.Analysis.MessagePlaces
import FStack.Prelude.Lent
import FStack.Prelude.Monitored

/-!
# Messages go back to the pool intact

A message that is given back gets its own buffer again if the tools have left in it what they are to
(`MsgRestorable`), and the buffers that `sysctl` allocates are lent to their messages (`LentOnce`).  `IpcSound`
says both, and every operation keeps it; a call does as long as its arguments are `CallSafe`.
-/

set_option autoImplicit false

namespace FStack.Analysis

open FStack.Model FStack.Prelude

variable {σ α : Type}
variable {m p i : ℕ} {msg : FfMsg α} {a : ToolStep α}

/-- The buffer of `rte_malloc` that a message has. -/
def heldBuf (msg : FfMsg α) : Option MsgPtr := msg.original_buf.map fun _ => msg.buf_addr

/-- A buffer of `rte_malloc`, as it was allocated. -/
def extraBuf (buf : ℕ) : MsgPtr := .extra buf 0

theorem extraBuf_injective : Function.Injective extraBuf := fun _ _ h => (MsgPtr.extra.inj h).1

/-- What holds of the messages and of the pool when `n` buffers have been allocated. -/
structure IpcSound (n : ℕ) (st : IpcState σ α) : Prop where
  intact : ∀ m ∈ st.pool, MsgIntact (st.msgs m) m
  restorable : ∀ m, MsgRestorable (st.msgs m) m
  type : ∀ m, (st.msgs m).msg_type < FF_MSG_NUM
  buffers : LentOnce extraBuf n (fun m => heldBuf (st.msgs m)) st.freed

variable {n : ℕ} {st st' : IpcState σ α}

/-! ## The operations -/

/-- The messages agree in their type and in what they say of their buffers. -/
structure SameBuffers (msg msg' : FfMsg α) : Prop where
  msg_type : msg'.msg_type = msg.msg_type
  buf_addr : msg'.buf_addr = msg.buf_addr
  buf_len : msg'.buf_len = msg.buf_len
  original_buf : msg'.original_buf = msg.original_buf
  original_buf_len : msg'.original_buf_len = msg.original_buf_len

/-- Only the rings have changed, or what the messages hold besides. -/
theorem IpcSound.of_same (h : IpcSound n st) (hmsgs : ∀ x, SameBuffers (st.msgs x) (st'.msgs x))
    (hpool : st'.pool = st.pool) (hfreed : st'.freed = st.freed) : IpcSound n st' := by
  refine ⟨?_, ?_, ?_, ?_⟩
  · intro x hx
    rw [hpool] at hx
    have hintact := h.intact x hx
    exact ⟨(hmsgs x).buf_addr.trans hintact.buf_addr, (hmsgs x).buf_len.trans hintact.buf_len,
      (hmsgs x).original_buf.trans hintact.original_buf⟩
  · intro x
    have hrest := h.restorable x
    rw [MsgRestorable] at hrest ⊢
    rwa [(hmsgs x).buf_addr, (hmsgs x).buf_len, (hmsgs x).original_buf, (hmsgs x).original_buf_len]
  · intro x
    rw [(hmsgs x).msg_type]
    exact h.type x
  · have hheld : (fun x => heldBuf (st'.msgs x)) = fun x => heldBuf (st.msgs x) := by
      funext x
      rw [heldBuf, heldBuf, (hmsgs x).buf_addr, (hmsgs x).original_buf]
    rw [hheld, hfreed]
    exact h.buffers

theorem IpcSound.of_rings (h : IpcSound n st) (hmsgs : st'.msgs = st.msgs) (hpool : st'.pool = st.pool)
    (hfreed : st'.freed = st.freed) : IpcSound n st' := by
  refine h.of_same (fun x => ?_) hpool hfreed
  rw [hmsgs]
  exact ⟨rfl, rfl, rfl, rfl, rfl⟩

theorem IpcSound.answered (h : IpcSound n st) (hans : Answered st st' m) : IpcSound n st' := by
  refine h.of_same (fun x => ?_) hans.pool hans.freed
  by_cases hx : x = m
  · rw [hx]
    exact ⟨hans.msg_type, hans.buf_addr, hans.buf_len, hans.original_buf, hans.original_buf_len⟩
  · rw [hans.others x hx]
    exact ⟨rfl, rfl, rfl, rfl, rfl⟩

theorem IpcSound.enqueue (h : IpcSound n st) (henq : st.enqueue p i m = some st') :
    IpcSound n st' := by
  rw [IpcState.enqueue] at henq
  split at henq
  · obtain rfl := Option.some.inj henq
    exact h.of_rings rfl rfl rfl
  · cases henq

theorem IpcSound.dequeue (h : IpcSound n st) (hdeq : st.dequeue p i = some (st', m)) :
    IpcSound n st' := by
  rw [IpcState.dequeue] at hdeq
  split at hdeq
  · cases hdeq
  · obtain ⟨rfl, -⟩ := Prod.mk.inj (Option.some.inj hdeq)
    exact h.of_rings rfl rfl rfl

/-- What the messages hold after one of them has been set. -/
theorem heldBuf_setMsg (st : IpcState σ α) (m : ℕ) (msg : FfMsg α) :
    (fun x => heldBuf ((st.setMsg m msg).msgs x)) =
      Function.update (fun x => heldBuf (st.msgs x)) m (heldBuf msg) := by
  funext x
  by_cases hx : x = m
  · rw [hx, IpcState.setMsg_self, Function.update_self]
  · rw [IpcState.setMsg_of_ne st msg hx, Function.update_of_ne hx]

theorem MsgIntact.isRestorable (h : MsgIntact msg m) : MsgRestorable msg m := by
  rw [MsgRestorable, h.original_buf]
  exact ⟨h.buf_addr, h.buf_len⟩

/-- A message keeps its type when it is given back. -/
theorem release_msg_type (st : IpcState σ α) (m x : ℕ) :
    ((st.release m).msgs x).msg_type = (st.msgs x).msg_type := by
  by_cases hx : x = m
  · rw [hx, IpcState.release]
    dsimp only
    split
    · rw [IpcState.setMsg_self]
    · rfl
  · rw [release_others st hx]

/-- **A message that is given back** is intact again, and its buffer is freed. -/
theorem IpcSound.release (h : IpcSound n st) (m : ℕ) : IpcSound n (st.release m) := by
  have hback := (release_intact_iff st m).mpr (h.restorable m)
  refine ⟨?_, ?_, ?_, ?_⟩
  · intro x hx
    by_cases heq : x = m
    · rw [heq]
      exact hback
    · rw [release_pool] at hx
      rw [release_others st heq]
      exact h.intact x (List.mem_of_ne_of_mem heq hx)
  · intro x
    by_cases heq : x = m
    · rw [heq]
      exact hback.isRestorable
    · rw [release_others st heq]
      exact h.restorable x
  · intro x
    rw [release_msg_type]
    exact h.type x
  · rw [IpcState.release]
    dsimp only
    split
    · rename_i original horig
      rw [heldBuf_setMsg]
      refine h.buffers.giveBack ?_
      rw [heldBuf, horig]
      rfl
    · exact h.buffers

theorem IpcSound.handleMsg (h : IpcSound n st) {b : MsgBuild} {c : StackCalls σ α}
    (hhandle : handleMsg b c p st m = some st') : IpcSound n st' := by
  have hans := h.answered (answered_answerMsg b c st m)
  rw [FStack.Model.handleMsg] at hhandle
  split at hhandle
  · cases henq : (answerMsg b c st m).enqueue p ((answerMsg b c st m).msgs m).msg_type m with
    | some st₁ =>
      rw [henq] at hhandle
      obtain rfl := Option.some.inj hhandle
      exact hans.enqueue henq
    | none =>
      rw [henq] at hhandle
      obtain rfl := Option.some.inj hhandle
      exact hans.release m
  · cases hhandle

/-- A message of the pool has been taken and filled. -/
theorem IpcSound.filled (h : IpcSound n st) {m n' : ℕ} {msg : FfMsg α} (honce : st.pool.count m ≤ 1)
    (hrest : MsgRestorable msg m) (htype : msg.msg_type < FF_MSG_NUM)
    (hlent : LentOnce extraBuf n' (Function.update (fun x => heldBuf (st.msgs x)) m (heldBuf msg))
      st.freed) :
    IpcSound n' ({ st with pool := st.pool.erase m }.setMsg m msg) := by
  have hpool : ∀ x ∈ st.pool.erase m, x ≠ m := by
    rintro x hx rfl
    have hcount := List.count_pos_iff.mpr hx
    rw [List.count_erase_self] at hcount
    omega
  refine ⟨?_, ?_, ?_, ?_⟩
  · intro x hx
    rw [IpcState.setMsg_of_ne _ msg (hpool x hx)]
    exact h.intact x (List.mem_of_mem_erase hx)
  · intro x
    by_cases hx : x = m
    · rw [hx, IpcState.setMsg_self]
      exact hrest
    · rw [IpcState.setMsg_of_ne _ msg hx]
      exact h.restorable x
  · intro x
    by_cases hx : x = m
    · rw [hx, IpcState.setMsg_self]
      exact htype
    · rw [IpcState.setMsg_of_ne _ msg hx]
      exact h.type x
  · rw [heldBuf_setMsg]
    exact hlent

/-! ## Steps -/

/-- The arguments of the call that a step begins are safe. -/
def ArgsSafe : ToolStep α → Prop
  | .begin _ _ call _ _ _ => CallSafe call
  | _ => True

instance : DecidablePred (ArgsSafe : ToolStep α → Prop)
  | .begin _ _ call _ _ _ => inferInstanceAs (Decidable (CallSafe call))
  | .send _ | .recv _ | .timeout _ | .take _ | .handle _ => inferInstanceAs (Decidable True)

/-- What holds in every state. -/
structure PoolInv (cfg : ToolConf σ α) (s : ToolSys σ α) : Prop where
  places : ∀ x, placeCount cfg s x ≤ 1
  sound : IpcSound s.extras.length s.ipc

variable {cfg : ToolConf σ α} {s : ToolSys σ α}

/-- What a call has made of its message. -/
theorem PoolInv.filled (h : PoolInv cfg s) {m : ℕ} (hm : m ∈ s.ipc.pool) {call : ToolCall}
    (hsafe : CallSafe call) (granted : Bool) :
    MarshalledSo s.extras m (s.filled cfg call m granted) :=
  marshal_so (h.sound.intact m hm) (h.sound.type m) s.extras cfg.build.inet6 granted hsafe

/-- The message that a call has filled is not restored to another buffer by its arguments. -/
theorem MsgRestorable.withArgs (h : MsgRestorable msg m) (args : MsgArgs α) :
    MsgRestorable { msg with args := args } m := by
  rw [MsgRestorable] at h ⊢
  exact h

theorem PoolInv.count_pool (h : PoolInv cfg s) (x : ℕ) : s.ipc.pool.count x ≤ 1 := by
  have hplaces := h.places x
  rw [placeCount, ipcCount] at hplaces
  omega

theorem beginCall_sound (h : PoolInv cfg s) (hm : m ∈ s.ipc.pool) {call : ToolCall} (hsafe : CallSafe call)
    (t proc : ℕ) (args : MsgArgs α) (granted : Bool) :
    IpcSound (s.beginCall cfg t proc call m args granted).extras.length
      (s.beginCall cfg t proc call m args granted).ipc := by
  have hso := @PoolInv.filled σ α cfg s h m hm call hsafe granted
  have hnone : heldBuf (s.ipc.msgs m) = none := by
    rw [heldBuf, (h.sound.intact m hm).original_buf]
    rfl
  have hsame : (s.filled cfg call m granted).extra = none →
      Function.update (fun x => heldBuf (s.ipc.msgs x)) m
        (heldBuf { (s.filled cfg call m granted).msg with args := args }) =
        fun x => heldBuf (s.ipc.msgs x) := by
    intro hextra
    rw [Function.update_eq_self_iff, hnone, heldBuf]
    dsimp only
    rw [hso.plain hextra]
    rfl
  rw [ToolSys.beginCall]
  dsimp only
  split
  · cases hextra : (s.filled cfg call m granted).extra with
    | none =>
      refine h.sound.filled (h.count_pool m) (hso.restorable.withArgs args) hso.type ?_
      rw [hsame hextra, Option.toList_none, List.append_nil]
      exact h.sound.buffers
    | some size =>
      obtain ⟨-, horig, haddr⟩ := hso.attached size hextra
      obtain ⟨original, horig⟩ := Option.ne_none_iff_exists'.mp horig
      have hheld : heldBuf { (s.filled cfg call m granted).msg with args := args } =
          some (extraBuf s.extras.length) := by
        rw [heldBuf]
        dsimp only
        rw [horig, haddr]
        rfl
      refine h.sound.filled (h.count_pool m) (hso.restorable.withArgs args) hso.type ?_
      rw [hheld, List.length_append, Option.toList_some, List.length_singleton]
      exact h.sound.buffers.lend extraBuf_injective hnone
  · rename_i hsend
    refine IpcSound.release ?_ m
    refine h.sound.filled (h.count_pool m) (hso.restorable.withArgs args) hso.type ?_
    cases hextra : (s.filled cfg call m granted).extra with
    | none =>
      rw [hsame hextra]
      exact h.sound.buffers
    | some size => exact absurd (hso.attached size hextra).1 hsend

theorem sendCall_sound (h : IpcSound s.extras.length s.ipc) (t : ℕ) :
    IpcSound (s.sendCall cfg t).extras.length (s.sendCall cfg t).ipc := by
  rw [ToolSys.sendCall]
  split
  · rename_i r hphase
    split
    · rename_i ipc hsent
      split at hsent
      · exact h.enqueue hsent
      · cases hsent
    · exact h.release r.m
  · exact h

theorem recvCall_sound (h : IpcSound s.extras.length s.ipc) (t : ℕ) :
    IpcSound (s.recvCall cfg t).extras.length (s.recvCall cfg t).ipc := by
  rw [ToolSys.recvCall]
  split
  · rename_i r hphase
    split
    · exact h
    · rename_i ipc m hrecv
      have hback : IpcSound s.extras.length (ipc.release m) := by
        rw [ToolSys.received] at hrecv
        split at hrecv
        · exact (h.dequeue hrecv).release m
        · cases hrecv
      split
      · exact hback
      · exact hback
  · exact h

theorem timeoutCall_sound (h : IpcSound s.extras.length s.ipc) (t : ℕ) :
    IpcSound (s.timeoutCall t).extras.length (s.timeoutCall t).ipc := by
  rw [ToolSys.timeoutCall]
  split
  · rename_i r hphase
    dsimp only
    split
    · exact h.release r.m
    · exact h
  · exact h

theorem takeBurst_sound (h : IpcSound s.extras.length s.ipc) (p : ℕ) :
    IpcSound (s.takeBurst p).extras.length (s.takeBurst p).ipc := by
  rw [ToolSys.takeBurst]
  split
  · exact h.of_rings rfl rfl rfl
  · exact h

theorem handleNext_sound (h : IpcSound s.extras.length s.ipc) (p : ℕ) :
    IpcSound (s.handleNext cfg p).extras.length (s.handleNext cfg p).ipc := by
  rw [ToolSys.handleNext]
  split
  · exact h
  · split
    · exact h
    · exact h.handleMsg ‹_›

/-- **Every step keeps the invariant**, as long as the arguments are safe and no `knictl` gives up. -/
theorem PoolInv.step (h : PoolInv cfg s) (hplaces : KeepsPlaces s a) (hargs : ArgsSafe a) :
    PoolInv cfg (s.step cfg a) := by
  refine ⟨fun x => ?_, ?_⟩
  · rw [step_placeCount a hplaces x]
    exact h.places x
  · cases a with
    | begin t proc call m args granted =>
      rw [ToolSys.step]
      split
      · split
        · rename_i hbegin
          exact beginCall_sound h hbegin.2.2 hargs t proc args granted
        · exact h.sound
      · exact h.sound
    | send t =>
      rw [ToolSys.step]
      split
      · exact sendCall_sound h.sound t
      · exact h.sound
    | recv t =>
      rw [ToolSys.step]
      split
      · exact recvCall_sound h.sound t
      · exact h.sound
    | timeout t =>
      rw [ToolSys.step]
      split
      · exact timeoutCall_sound h.sound t
      · exact h.sound
    | take p =>
      rw [ToolSys.step]
      split
      · exact takeBurst_sound h.sound p
      · exact h.sound
    | handle p =>
      rw [ToolSys.step]
      split
      · exact handleNext_sound h.sound p
      · exact h.sound

/-- The invariant holds after `init_msg_ring`. -/
theorem PoolInv.init {objs : List ℕ} (hobjs : objs.Nodup) (msgs : ℕ → FfMsg α) (stack : σ)
    (top : TopArgs) (traffic : TrafficArgs) (action : ℤ) :
    PoolInv cfg (ToolSys.init objs msgs stack top traffic action) := by
  refine ⟨fun x => ?_, ?_, ?_, ?_, ?_⟩
  · rw [init_placeCount]
    exact List.nodup_iff_count_le_one.mp hobjs x
  · exact fun m _ => ⟨rfl, rfl, rfl⟩
  · exact fun m => ⟨rfl, rfl⟩
  · exact fun m => (by decide : FF_UNKNOWN < FF_MSG_NUM)
  · exact LentOnce.start extraBuf

/-! ## Runs -/

/-- The messages of the pool are intact, and every buffer that has been allocated has been freed once, or hangs
on a message that is not in the pool. -/
structure PoolGood (s : ToolSys σ α) : Prop where
  intact : ∀ m ∈ s.ipc.pool, MsgIntact (s.ipc.msgs m) m
  freed_once : s.ipc.freed.Nodup
  freed_extra : ∀ p ∈ s.ipc.freed, ∃ b < s.extras.length, p = extraBuf b
  freed_all : ∀ b < s.extras.length, extraBuf b ∈ s.ipc.freed ∨
    ∃ m, m ∉ s.ipc.pool ∧ heldBuf (s.ipc.msgs m) = some (extraBuf b)

/-- What a step writes is within bounds: a call that begins writes into the buffer of its message, and the
process reads no ring behind the end of its rings. -/
def StepBounded (cfg : ToolConf σ α) (s : ToolSys σ α) : ToolStep α → Prop
  | .begin _ _ call m _ granted =>
    ¬call.invalid ∧ m ∈ s.ipc.pool →
      ∀ w ∈ (s.filled cfg call m granted).writes,
        MsgWrite.Within (s.extras ++ (s.filled cfg call m granted).extra.toList) m w
  | .handle p => ∀ m ∈ (s.burst p).head?, handleMsg cfg.build cfg.stack p s.ipc m ≠ none
  | _ => True

/-- What is to hold of a step. -/
def PoolRight (cfg : ToolConf σ α) (s : ToolSys σ α) (a : ToolStep α) : Prop :=
  StepBounded cfg s a ∧ PoolGood (s.step cfg a)

/-- The step is safe. -/
def PoolSafe (s : ToolSys σ α) (a : ToolStep α) : Prop := KeepsPlaces s a ∧ ArgsSafe a

instance (s : ToolSys σ α) : DecidablePred (PoolSafe s) := fun _ => inferInstanceAs (Decidable (_ ∧ _))

theorem PoolInv.good (h : PoolInv cfg s) : PoolGood s := by
  refine ⟨h.sound.intact, h.sound.buffers.back_nodup, h.sound.buffers.back_known, fun b hb => ?_⟩
  refine (h.sound.buffers.covered b hb).imp_right fun ⟨m, hheld⟩ => ⟨m, fun hpool => ?_, hheld⟩
  rw [heldBuf, (h.sound.intact m hpool).original_buf] at hheld
  cases hheld

theorem PoolInv.bounded (h : PoolInv cfg s) (hargs : ArgsSafe a) :
    StepBounded cfg s a := by
  cases a with
  | begin t proc call m args granted =>
    rintro ⟨-, hm⟩
    exact (h.filled hm hargs granted).writes
  | handle p =>
    intro m _ hnone
    have hans := answered_answerMsg cfg.build cfg.stack s.ipc m
    rw [handleMsg, hans.msg_type] at hnone
    rw [if_pos (h.sound.type m)] at hnone
    split at hnone <;> cases hnone
  | _ => trivial

/-- **Messages go back to the pool intact**, and buffers are freed once, in every run of safe steps. -/
theorem pool_messages_intact {objs : List ℕ} (hobjs : objs.Nodup) (msgs : ℕ → FfMsg α) (stack : σ)
    (top : TopArgs) (traffic : TrafficArgs) (action : ℤ) {steps : List (ToolStep α)}
    (hsafe : AllSteps (ToolSys.step cfg) PoolSafe
      (ToolSys.init objs msgs stack top traffic action) steps) :
    AllSteps (ToolSys.step cfg) (PoolRight cfg)
      (ToolSys.init objs msgs stack top traffic action) steps := by
  refine @AllSteps.imp _ _ _ _ _ (PoolInv cfg) (fun s a h hsafe => ?_) (fun s a h hsafe => ?_) _
    (PoolInv.init hobjs msgs stack top traffic action) _ hsafe
  · exact h.step hsafe.1 hsafe.2
  · exact ⟨h.bounded hsafe.2, (h.step hsafe.1 hsafe.2).good⟩

/-- One process and two tools. -/
def calmConf : ToolConf Unit Unit :=
  { procs := 1
    tools := 2
    build := ⟨true, true, true, true⟩
    stack := calmStack }

/-- They start with `objs` in the pool. -/
def calmSys (objs : List ℕ) : ToolSys Unit Unit :=
  ToolSys.init objs freshIpc.msgs () freshIpc.top freshIpc.traffic 0

/-- A call of the first tool that is answered. -/
def answeredCall (call : ToolCall) : List (ToolStep Unit) :=
  [.begin 0 0 call 0 emptyArgs true, .send 0, .take 0, .handle 0, .recv 0]

/-- `sysctl` for 20000 bytes, which do not fit into the message, and then `rtioctl` without data. -/
theorem pool_messages_intact_sysctl :
    AllSteps (ToolSys.step calmConf) (PoolRight calmConf) (calmSys [0])
      (answeredCall (.sysctl ⟨2, true, some 20000, false, 0⟩) ++ answeredCall (.rtioctl 0)) :=
  pool_messages_intact (List.nodup_singleton 0) _ _ _ _ _
    (by simp [answeredCall, PoolSafe, KeepsPlaces, ArgsSafe, CallSafe, SysctlArgs.size, SysctlArgs.oldlen,
      SysctlArgs.written])

/-- After an `rtioctl` with four bytes, the buffer of the message begins at its fifth byte. -/
theorem not_pool_messages_intact :
    ¬AllSteps (ToolSys.step calmConf) (PoolRight calmConf) (calmSys [0]) (answeredCall (.rtioctl 4)) := by
  rintro ⟨-, -, -, -, ⟨-, hgood⟩, -⟩
  have haddr := (hgood.intact 0 (by decide)).buf_addr
  exact absurd haddr (by decide)

end FStack.Analysis
