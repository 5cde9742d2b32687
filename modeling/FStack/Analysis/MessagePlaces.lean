import FStack.Analysis.ControlReplies
import FStack.Model.ToolCalls
import FStack.Prelude.Slots

/-!
# Where the messages are

A message is in the pool, in a ring, in the burst of a process, or with the tool that fills it.  Every step takes
it out of one of these places and puts it into another (`step_placeCount`), but for a `knictl` that gives up: it
gives back a message that is still in a ring.
-/

set_option autoImplicit false

namespace FStack.Analysis

open FStack.Model FStack.Prelude

variable {σ α : Type}
variable {procs p i m : ℕ} {st st' : IpcState σ α}

/-- How often the message `x` is in the rings of the processes. -/
def ringCount (procs : ℕ) (ring : ℕ → ℕ → List ℕ) (x : ℕ) : ℕ :=
  ∑ p ∈ Finset.range procs, ∑ i ∈ Finset.range FF_MSG_NUM, (ring p i).count x

/-- How often it is in the pool and in the rings. -/
def ipcCount (procs : ℕ) (st : IpcState σ α) (x : ℕ) : ℕ :=
  st.pool.count x + ringCount procs st.ring x

/-- Whether a tool has it, as a number. -/
def holdCount (x : ℕ) : ToolPhase α → ℕ
  | .holding r => if r.m = x then 1 else 0
  | _ => 0

@[simp] theorem holdCount_idle (x : ℕ) : holdCount x (.idle : ToolPhase α) = 0 := rfl

@[simp] theorem holdCount_waiting (x : ℕ) (r : ToolRequest α) : holdCount x (.waiting r) = 0 := rfl

@[simp] theorem holdCount_holding (x : ℕ) (r : ToolRequest α) :
    holdCount x (.holding r) = if r.m = x then 1 else 0 := rfl

/-- In how many places it is. -/
def placeCount (cfg : ToolConf σ α) (s : ToolSys σ α) (x : ℕ) : ℕ :=
  ipcCount cfg.procs s.ipc x + ∑ p ∈ Finset.range cfg.procs, (s.burst p).count x +
    ∑ t ∈ Finset.range cfg.tools, holdCount x (s.tools t)

/-! ## The pool and the rings -/

theorem ringCount_update (ring : ℕ → ℕ → List ℕ) (hp : p < procs) (hi : i < FF_MSG_NUM) (l : List ℕ) (x : ℕ) :
    ringCount procs (Function.update ring p (Function.update (ring p) i l)) x + (ring p i).count x =
      ringCount procs ring x + l.count x := by
  have houter := sum_exchange_on (Finset.range procs)
    (fun row : ℕ → List ℕ => ∑ i ∈ Finset.range FF_MSG_NUM, (row i).count x) ring
    (Finset.mem_range.mpr hp) (Function.update (ring p) i l)
  have hinner := sum_exchange_on (Finset.range FF_MSG_NUM) (fun l : List ℕ => l.count x) (ring p)
    (Finset.mem_range.mpr hi) l
  rw [ringCount, ringCount]
  omega

theorem release_count (procs : ℕ) (st : IpcState σ α) (m x : ℕ) :
    ipcCount procs (st.release m) x = ipcCount procs st x + if m = x then 1 else 0 := by
  rw [ipcCount, ipcCount, release_pool, release_ring, List.count_cons]
  simp only [beq_iff_eq]
  omega

theorem enqueue_count (hp : p < procs) (hi : i < FF_MSG_NUM) (h : st.enqueue p i m = some st') (x : ℕ) :
    ipcCount procs st' x = ipcCount procs st x + if m = x then 1 else 0 := by
  rw [IpcState.enqueue] at h
  split at h
  · obtain rfl := Option.some.inj h
    have hring := ringCount_update st.ring hp hi (st.ring p i ++ [m]) x
    rw [List.count_append, List.count_singleton] at hring
    simp only [beq_iff_eq] at hring
    rw [ipcCount, ipcCount]
    dsimp only
    omega
  · cases h

theorem dequeue_count (hp : p < procs) (hi : i < FF_MSG_NUM) (h : st.dequeue p i = some (st', m)) (x : ℕ) :
    ipcCount procs st' x + (if m = x then 1 else 0) = ipcCount procs st x := by
  rw [IpcState.dequeue] at h
  split at h
  · cases h
  · rename_i m' ms hring
    obtain ⟨rfl, rfl⟩ := Prod.mk.inj (Option.some.inj h)
    have hcount := ringCount_update st.ring hp hi ms x
    rw [hring, List.count_cons] at hcount
    simp only [beq_iff_eq] at hcount
    rw [ipcCount, ipcCount]
    dsimp only
    omega

theorem Answered.count (h : Answered st st' m) (procs x : ℕ) :
    ipcCount procs st' x = ipcCount procs st x := by
  rw [ipcCount, ipcCount, h.ring, h.pool]

/-- INTERNAL: What `handle_msg` has answered is in the out-ring or in the pool. -/
theorem handleMsg_count {b : MsgBuild} {c : StackCalls σ α} (hp : p < procs) (h : handleMsg b c p st m = some st')
    (x : ℕ) :
    ipcCount procs st' x = ipcCount procs st x + if m = x then 1 else 0 := by
  have hans := answered_answerMsg b c st m
  rw [← hans.count procs x]
  rw [handleMsg] at h
  split at h
  · rename_i htype
    cases henq : (answerMsg b c st m).enqueue p ((answerMsg b c st m).msgs m).msg_type m with
    | some st₁ =>
      rw [henq] at h
      obtain rfl := Option.some.inj h
      exact enqueue_count hp htype henq x
    | none =>
      rw [henq] at h
      obtain rfl := Option.some.inj h
      exact release_count procs _ m x
  · cases h

/-! ## Steps -/

/-- The step is not a `knictl` that gives up. -/
def KeepsPlaces (s : ToolSys σ α) : ToolStep α → Prop
  | .timeout t =>
    match s.tools t with
    | .waiting r => r.req.msg_type ≠ FF_KNICTL
    | _ => True
  | _ => True

instance (s : ToolSys σ α) (a : ToolStep α) : Decidable (KeepsPlaces s a) := by
  cases a with
  | timeout t =>
    unfold KeepsPlaces
    dsimp only
    split <;> infer_instance
  | _ => exact inferInstanceAs (Decidable True)

variable {cfg : ToolConf σ α} {s : ToolSys σ α}

theorem holdCount_update {t : ℕ} (ht : t < cfg.tools) (phase : ToolPhase α) (x : ℕ) :
    ∑ u ∈ Finset.range cfg.tools, holdCount x (Function.update s.tools t phase u) +
        holdCount x (s.tools t) =
      ∑ u ∈ Finset.range cfg.tools, holdCount x (s.tools u) + holdCount x phase :=
  sum_exchange_on (Finset.range cfg.tools) (holdCount x) s.tools (Finset.mem_range.mpr ht) phase

theorem burstCount_update {p : ℕ} (hp : p < cfg.procs) (l : List ℕ) (x : ℕ) :
    ∑ q ∈ Finset.range cfg.procs, (Function.update s.burst p l q).count x + (s.burst p).count x =
      ∑ q ∈ Finset.range cfg.procs, (s.burst q).count x + l.count x :=
  sum_exchange_on (Finset.range cfg.procs) (fun l : List ℕ => l.count x) s.burst
    (Finset.mem_range.mpr hp) l

theorem beginCall_placeCount {t m : ℕ} (ht : t < cfg.tools) (hidle : s.tools t = .idle)
    (hm : m ∈ s.ipc.pool) (proc : ℕ) (call : ToolCall) (args : MsgArgs α) (granted : Bool) (x : ℕ) :
    placeCount cfg (s.beginCall cfg t proc call m args granted) x = placeCount cfg s x := by
  have herase : (s.ipc.pool.erase m).count x + (if m = x then 1 else 0) = s.ipc.pool.count x := by
    rw [List.count_erase]
    simp only [beq_iff_eq]
    split
    · rename_i heq
      have hpos := List.count_pos_iff.mpr hm
      rw [heq] at hpos
      omega
    · omega
  rw [ToolSys.beginCall]
  dsimp only
  split
  · obtain ⟨r, hr⟩ : ∃ r : ToolRequest α, r =
        ⟨proc, m, s.calls + 1, { (s.filled cfg call m granted).msg with args := args }⟩ := ⟨_, rfl⟩
    have hrm : r.m = m := by rw [hr]
    have hhold := @holdCount_update σ α cfg s t ht (.holding r) x
    rw [hidle, holdCount_idle, holdCount_holding, hrm] at hhold
    rw [← hr]
    simp only [placeCount, ipcCount, IpcState.setMsg]
    omega
  · simp only [placeCount]
    rw [release_count]
    simp only [ipcCount, IpcState.setMsg]
    omega

theorem sendCall_placeCount {t : ℕ} (ht : t < cfg.tools) (x : ℕ) :
    placeCount cfg (s.sendCall cfg t) x = placeCount cfg s x := by
  rw [ToolSys.sendCall]
  cases hphase : s.tools t with
  | idle => rfl
  | waiting r => rfl
  | holding r =>
    have hhold : ∀ phase : ToolPhase α, holdCount x phase = 0 →
        ∑ u ∈ Finset.range cfg.tools, holdCount x (Function.update s.tools t phase u) +
          (if r.m = x then 1 else 0) =
        ∑ u ∈ Finset.range cfg.tools, holdCount x (s.tools u) := by
      intro phase hzero
      have hupdate := @holdCount_update σ α cfg s t ht phase x
      rw [hphase, hzero] at hupdate
      exact hupdate
    dsimp only
    split
    · rename_i ipc hsent
      split at hsent
      · rename_i hproc
        have hidle := hhold (.waiting r) rfl
        have hcount := enqueue_count hproc (by decide) hsent x
        simp only [placeCount, ToolSys.setTool]
        omega
      · cases hsent
    · have hidle := hhold .idle rfl
      simp only [placeCount, ToolSys.setTool]
      rw [release_count]
      omega

theorem recvCall_placeCount {t : ℕ} (ht : t < cfg.tools) (x : ℕ) :
    placeCount cfg (s.recvCall cfg t) x = placeCount cfg s x := by
  rw [ToolSys.recvCall]
  cases hphase : s.tools t with
  | idle => rfl
  | holding r => rfl
  | waiting r =>
    have hidle := @holdCount_update σ α cfg s t ht .idle x
    rw [hphase] at hidle
    rw [holdCount_waiting, holdCount_idle] at hidle
    dsimp only
    split
    · rfl
    · rename_i ipc m hrecv
      have hcount : ipcCount cfg.procs (ipc.release m) x = ipcCount cfg.procs s.ipc x := by
        rw [ToolSys.received] at hrecv
        split at hrecv
        · rename_i hring
          rw [release_count, dequeue_count hring.1 hring.2.2 hrecv x]
        · cases hrecv
      split
      · simp only [placeCount, ToolSys.setTool]
        omega
      · simp only [placeCount]
        omega

theorem timeoutCall_placeCount {t : ℕ} (ht : t < cfg.tools) (hsafe : KeepsPlaces s (.timeout t))
    (x : ℕ) : placeCount cfg (s.timeoutCall t) x = placeCount cfg s x := by
  rw [KeepsPlaces] at hsafe
  rw [ToolSys.timeoutCall]
  cases hphase : s.tools t with
  | idle => rfl
  | holding r => rfl
  | waiting r =>
    have hidle := @holdCount_update σ α cfg s t ht .idle x
    rw [hphase] at hidle hsafe
    rw [holdCount_waiting, holdCount_idle] at hidle
    dsimp only at hsafe ⊢
    rw [if_neg hsafe]
    simp only [placeCount, ToolSys.setTool]
    omega

theorem takeBurst_placeCount {p : ℕ} (hp : p < cfg.procs) (x : ℕ) :
    placeCount cfg (s.takeBurst p) x = placeCount cfg s x := by
  rw [ToolSys.takeBurst]
  split
  · rename_i hempty
    have hburst := @burstCount_update σ α cfg s p hp ((s.ipc.ring p 0).take MAX_PKT_BURST) x
    have hring := ringCount_update s.ipc.ring hp (show 0 < FF_MSG_NUM by decide) ((s.ipc.ring p 0).drop MAX_PKT_BURST) x
    have hsplit := congrArg (List.count x) (List.take_append_drop MAX_PKT_BURST (s.ipc.ring p 0))
    rw [List.count_append] at hsplit
    rw [hempty, List.count_nil] at hburst
    simp only [placeCount, ipcCount]
    omega
  · rfl

theorem handleNext_placeCount {p : ℕ} (hp : p < cfg.procs) (x : ℕ) :
    placeCount cfg (s.handleNext cfg p) x = placeCount cfg s x := by
  rw [ToolSys.handleNext]
  split
  · rfl
  · rename_i m ms hburst
    split
    · rfl
    · rename_i ipc hhandled
      have hcount := handleMsg_count hp hhandled x
      have hupdate := @burstCount_update σ α cfg s p hp ms x
      rw [hburst, List.count_cons] at hupdate
      simp only [beq_iff_eq] at hupdate
      simp only [placeCount]
      omega

/-- **No step loses a message or doubles one**, unless it is a `knictl` that gives up. -/
theorem step_placeCount (a : ToolStep α) (hsafe : KeepsPlaces s a) (x : ℕ) :
    placeCount cfg (s.step cfg a) x = placeCount cfg s x := by
  cases a with
  | begin t proc call m args granted =>
    rw [ToolSys.step]
    cases hphase : s.tools t with
    | idle =>
      dsimp only
      split
      · rename_i hbegin
        exact beginCall_placeCount hbegin.1 hphase hbegin.2.2 proc call args granted x
      · rfl
    | holding r => rfl
    | waiting r => rfl
  | send t =>
    rw [ToolSys.step]
    split
    · exact sendCall_placeCount ‹_› x
    · rfl
  | recv t =>
    rw [ToolSys.step]
    split
    · exact recvCall_placeCount ‹_› x
    · rfl
  | timeout t =>
    rw [ToolSys.step]
    split
    · exact timeoutCall_placeCount ‹_› hsafe x
    · rfl
  | take p =>
    rw [ToolSys.step]
    split
    · exact takeBurst_placeCount ‹_› x
    · rfl
  | handle p =>
    rw [ToolSys.step]
    split
    · exact handleNext_placeCount ‹_› x
    · rfl

/-- INTERNAL: At the beginning every message is in the pool. -/
theorem init_placeCount (objs : List ℕ) (msgs : ℕ → FfMsg α) (stack : σ) (top : TopArgs)
    (traffic : TrafficArgs) (action : ℤ) (x : ℕ) :
    placeCount cfg (ToolSys.init objs msgs stack top traffic action) x = objs.count x := by
  simp [placeCount, ipcCount, ringCount, ToolSys.init, holdCount]

end FStack.Analysis
