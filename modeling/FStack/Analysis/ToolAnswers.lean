import FStack.Analysis.PoolMessages
import Mathlib.Algebra.Order.BigOperators.Group.Finset

/-!
# Tools get their own answers

The replies of one type come through one ring, and a tool knows its own by the address of its message.  If one tool
at a time waits for replies of a type from a process, and the out-ring has room for its reply, then its message stays
on its way through the process, as the tool has filled it or as `handle_msg` has answered it (`Sent`).  A run of such
steps in which no `knictl` gives up is right (`tool_answers_right`).
-/

set_option autoImplicit false

namespace FStack.Analysis

open FStack.Model FStack.Prelude

variable {σ α : Type}
variable {p i m t q j u : ℕ} {r : ToolRequest α} {tools : ℕ → ToolPhase α}
variable {x : ℕ} {phase : ToolPhase α} {st st' ipc : IpcState σ α} {ring : ℕ → ℕ → List ℕ}

/-! ## Right and safe steps -/

/-- What a tool in a call is about. -/
def phaseRequest : ToolPhase α → Option (ToolRequest α)
  | .idle => none
  | .holding r | .waiting r => some r

/-- The tool waits, and `P` holds of what it waits for. -/
def WaitsFor (P : ToolRequest α → Prop) : ToolPhase α → Prop
  | .waiting r => P r
  | _ => False

instance (P : ToolRequest α → Prop) [DecidablePred P] : DecidablePred (WaitsFor P)
  | .idle | .holding _ => inferInstanceAs (Decidable False)
  | .waiting r => inferInstanceAs (Decidable (P r))

/-- A tool sends while no tool waits for a reply of the same type from the same process, and `handle_msg` finds room
in the out-ring for a message that a tool still waits for. -/
def AloneSafe (cfg : ToolConf σ α) (s : ToolSys σ α) : ToolStep α → Prop
  | .send t =>
    match s.tools t with
    | .holding r => ∀ u < cfg.tools,
        ¬ WaitsFor (fun r' => r'.proc = r.proc ∧ r'.req.msg_type = r.req.msg_type) (s.tools u)
    | _ => True
  | .handle p =>
    match s.burst p with
    | m :: _ => (∃ u < cfg.tools, WaitsFor (·.m = m) (s.tools u)) →
        (s.ipc.ring p (s.ipc.msgs m).msg_type).length < MSG_RING_CAPACITY
    | [] => True
  | _ => True

instance (cfg : ToolConf σ α) (s : ToolSys σ α) : DecidablePred (AloneSafe cfg s)
  | .send t =>
    match h : s.tools t with
    | .holding r =>
      decidable_of_iff (∀ u < cfg.tools,
        ¬ WaitsFor (fun r' => r'.proc = r.proc ∧ r'.req.msg_type = r.req.msg_type) (s.tools u)) (by rw [AloneSafe, h])
    | .idle | .waiting _ => isTrue (by rw [AloneSafe, h]; trivial)
  | .handle p =>
    match h : s.burst p with
    | m :: _ =>
      decidable_of_iff ((∃ u < cfg.tools, WaitsFor (·.m = m) (s.tools u)) →
        (s.ipc.ring p (s.ipc.msgs m).msg_type).length < MSG_RING_CAPACITY) (by rw [AloneSafe, h])
    | [] => isTrue (by rw [AloneSafe, h]; trivial)
  | .begin .. | .recv _ | .timeout _ | .take _ => inferInstanceAs (Decidable True)

def OwnAnswerSafe (cfg : ToolConf σ α) (s : ToolSys σ α) (a : ToolStep α) : Prop :=
  KeepsPlaces s a ∧ AloneSafe cfg s a

instance (cfg : ToolConf σ α) (s : ToolSys σ α) (a : ToolStep α) : Decidable (OwnAnswerSafe cfg s a) :=
  inferInstanceAs (Decidable (KeepsPlaces s a ∧ AloneSafe cfg s a))

/-! ## The invariant -/

/-- The tool has the message as it has filled it. -/
structure Held (s : ToolSys σ α) (r : ToolRequest α) : Prop where
  request : s.request r.m = r.call
  msgs : s.ipc.msgs r.m = r.req
  type : 0 < r.req.msg_type

/-- The message is in the in-ring or the burst of its process as the tool has filled it, or in the out-ring of its
type with what `handle_msg` has answered. -/
def OnItsWay (s : ToolSys σ α) (r : ToolRequest α) : Prop :=
  (r.m ∈ s.ipc.ring r.proc 0 ∨ r.m ∈ s.burst r.proc) ∧ s.ipc.msgs r.m = r.req ∨
    (r.req.msg_type < FF_MSG_NUM ∧ r.m ∈ s.ipc.ring r.proc r.req.msg_type) ∧
      (s.ipc.msgs r.m).msg_type = r.req.msg_type ∧ s.handled r.m = some ⟨r.call, r.req, s.ipc.msgs r.m⟩

/-- The message of a waiting tool is on its way, and no other call has filled it since. -/
structure Sent (cfg : ToolConf σ α) (s : ToolSys σ α) (r : ToolRequest α) : Prop where
  proc : r.proc < cfg.procs
  request : s.request r.m = r.call
  type : 0 < r.req.msg_type
  place : OnItsWay s r

/-- Every message is in one place; calls are numbered, and each has filled one message only; one tool waits for replies
of a type from a process, and what it waits for is on its way. -/
structure AnswerInv (cfg : ToolConf σ α) (objs : List ℕ) (s : ToolSys σ α) : Prop where
  places : ∀ x, placeCount cfg s x = objs.count x
  idle : ∀ t, cfg.tools ≤ t → s.tools t = .idle
  known : ∀ m, s.request m ≤ s.calls
  answered : ∀ m a, s.handled m = some a → a.call ≤ s.calls
  called : ∀ t r, phaseRequest (s.tools t) = some r → r.call ≤ s.calls
  filled : ∀ t r, phaseRequest (s.tools t) = some r → ∀ m, s.request m = r.call → m = r.m
  handled : ∀ t r, phaseRequest (s.tools t) = some r → ∀ m a, s.handled m = some a → a.call = r.call → m = r.m
  single : ∀ t u r r', s.tools t = .waiting r → s.tools u = .waiting r' → r'.proc = r.proc →
    r'.req.msg_type = r.req.msg_type → u = t
  held : ∀ t r, s.tools t = .holding r → Held s r
  sent : ∀ t r, s.tools t = .waiting r → Sent cfg s r

variable {cfg : ToolConf σ α} {objs : List ℕ} {s s' : ToolSys σ α}

/-! ## One place for each message -/

theorem ring_count_le {procs : ℕ} (ring : ℕ → ℕ → List ℕ) (hp : p < procs) (hi : i < FF_MSG_NUM) (x : ℕ) :
    (ring p i).count x ≤ ringCount procs ring x := by
  have hrow : (ring p i).count x ≤ ∑ i ∈ Finset.range FF_MSG_NUM, (ring p i).count x :=
    Finset.single_le_sum (f := fun i => (ring p i).count x) (fun _ _ => Nat.zero_le _) (Finset.mem_range.mpr hi)
  exact hrow.trans (Finset.single_le_sum (f := fun p => ∑ i ∈ Finset.range FF_MSG_NUM, (ring p i).count x)
    (fun _ _ => Nat.zero_le _) (Finset.mem_range.mpr hp))

theorem burst_count_le {p : ℕ} (hp : p < cfg.procs) (x : ℕ) :
    (s.burst p).count x ≤ ∑ p ∈ Finset.range cfg.procs, (s.burst p).count x :=
  Finset.single_le_sum (f := fun p => (s.burst p).count x) (fun _ _ => Nat.zero_le _) (Finset.mem_range.mpr hp)

theorem hold_count_le {t : ℕ} (ht : t < cfg.tools) (x : ℕ) :
    holdCount x (s.tools t) ≤ ∑ t ∈ Finset.range cfg.tools, holdCount x (s.tools t) :=
  Finset.single_le_sum (f := fun t => holdCount x (s.tools t)) (fun _ _ => Nat.zero_le _)
    (Finset.mem_range.mpr ht)

/-- A message in the pool is nowhere else. -/
theorem pool_alone (hone : placeCount cfg s m ≤ 1) (hm : m ∈ s.ipc.pool) :
    (∀ p < cfg.procs, ∀ i < FF_MSG_NUM, m ∉ s.ipc.ring p i) ∧ (∀ p < cfg.procs, m ∉ s.burst p) ∧
      ∀ t < cfg.tools, ∀ r, s.tools t = .holding r → r.m ≠ m := by
  have hpos := List.count_pos_iff.mpr hm
  rw [placeCount, ipcCount] at hone
  refine ⟨fun p hp i hi hring => ?_, fun p hp hburst => ?_, fun t ht r hphase heq => ?_⟩
  · have hcount := ring_count_le s.ipc.ring hp hi m
    have hin := List.count_pos_iff.mpr hring
    omega
  · have hcount := @burst_count_le σ α cfg s p hp m
    have hin := List.count_pos_iff.mpr hburst
    omega
  · have hcount := @hold_count_le σ α cfg s t ht m
    rw [hphase, holdCount_holding, if_pos heq] at hcount
    omega

/-- A message that a tool has is nowhere else. -/
theorem held_alone (hone : placeCount cfg s r.m ≤ 1) (ht : t < cfg.tools) (hphase : s.tools t = .holding r) :
    (∀ p < cfg.procs, ∀ i < FF_MSG_NUM, r.m ∉ s.ipc.ring p i) ∧ ∀ p < cfg.procs, r.m ∉ s.burst p := by
  have hcount := @hold_count_le σ α cfg s t ht r.m
  rw [hphase, holdCount_holding, if_pos rfl] at hcount
  rw [placeCount, ipcCount] at hone
  refine ⟨fun p hp i hi hring => ?_, fun p hp hburst => ?_⟩
  · have hring' := ring_count_le s.ipc.ring hp hi r.m
    have hin := List.count_pos_iff.mpr hring
    omega
  · have hburst' := @burst_count_le σ α cfg s p hp r.m
    have hin := List.count_pos_iff.mpr hburst
    omega

/-- A message in a ring is in no burst, and no tool has it. -/
theorem ring_alone (hone : placeCount cfg s m ≤ 1) (hp : p < cfg.procs) (hi : i < FF_MSG_NUM) (hm : m ∈ s.ipc.ring p i)
    :
    (∀ q < cfg.procs, m ∉ s.burst q) ∧ ∀ t < cfg.tools, ∀ r, s.tools t = .holding r → r.m ≠ m := by
  have hcount := ring_count_le s.ipc.ring hp hi m
  have hpos := List.count_pos_iff.mpr hm
  rw [placeCount, ipcCount] at hone
  refine ⟨fun q hq hburst => ?_, fun t ht r hphase heq => ?_⟩
  · have hburst' := @burst_count_le σ α cfg s q hq m
    have hin := List.count_pos_iff.mpr hburst
    omega
  · have hhold := @hold_count_le σ α cfg s t ht m
    rw [hphase, holdCount_holding, if_pos heq] at hhold
    omega

/-- A message is in one burst only. -/
theorem burst_unique (hone : placeCount cfg s m ≤ 1) (hp : p < cfg.procs) (hq : q < cfg.procs) (hm : m ∈ s.burst p)
    (hm' : m ∈ s.burst q) : p = q := by
  by_contra hne
  have hsub : ({p, q} : Finset ℕ) ⊆ Finset.range cfg.procs := by
    intro a ha
    rcases Finset.mem_insert.mp ha with rfl | ha
    · exact Finset.mem_range.mpr hp
    · obtain rfl := Finset.mem_singleton.mp ha
      exact Finset.mem_range.mpr hq
  have hsum := Finset.sum_le_sum_of_subset (f := fun p => (s.burst p).count m) hsub
  rw [Finset.sum_pair hne] at hsum
  have hpos := List.count_pos_iff.mpr hm
  have hpos' := List.count_pos_iff.mpr hm'
  rw [placeCount] at hone
  omega

/-- A message in a burst is in no ring. -/
theorem burst_alone (hone : placeCount cfg s m ≤ 1) (hp : p < cfg.procs) (hm : m ∈ s.burst p) :
    ∀ q < cfg.procs, ∀ i < FF_MSG_NUM, m ∉ s.ipc.ring q i :=
  fun _ hq _ hi hring => (ring_alone hone hq hi hring).1 p hp hm

/-- A message in one place is in one ring only. -/
theorem ring_unique (hone : placeCount cfg s m ≤ 1) (hp : p < cfg.procs) (hq : q < cfg.procs) (hi : i < FF_MSG_NUM)
    (hj : j < FF_MSG_NUM) (hm : m ∈ s.ipc.ring p i) (hm' : m ∈ s.ipc.ring q j) :
    q = p ∧ j = i := by
  by_contra hne
  have hdiff : (p, i) ≠ (q, j) := by
    rintro ⟨⟩
    exact hne ⟨rfl, rfl⟩
  have hsub : ({(p, i), (q, j)} : Finset (ℕ × ℕ)) ⊆ Finset.range cfg.procs ×ˢ Finset.range FF_MSG_NUM := by
    intro a ha
    rcases Finset.mem_insert.mp ha with rfl | ha
    · exact Finset.mem_product.mpr ⟨Finset.mem_range.mpr hp, Finset.mem_range.mpr hi⟩
    · obtain rfl := Finset.mem_singleton.mp ha
      exact Finset.mem_product.mpr ⟨Finset.mem_range.mpr hq, Finset.mem_range.mpr hj⟩
  have hsum := Finset.sum_le_sum_of_subset (f := fun a : ℕ × ℕ => (s.ipc.ring a.1 a.2).count m) hsub
  rw [Finset.sum_pair hdiff, Finset.sum_product] at hsum
  dsimp only at hsum
  have hpos := List.count_pos_iff.mpr hm
  have hpos' := List.count_pos_iff.mpr hm'
  rw [placeCount, ipcCount, ringCount] at hone
  omega

/-- Where a message is that a tool waits for. -/
theorem Sent.placed (h : Sent cfg s r) : (r.m ∈ s.ipc.ring r.proc 0 ∨ r.m ∈ s.burst r.proc) ∨
    r.req.msg_type < FF_MSG_NUM ∧ r.m ∈ s.ipc.ring r.proc r.req.msg_type :=
  h.place.imp And.left And.left

theorem Sent.msg_type (h : Sent cfg s r) : (s.ipc.msgs r.m).msg_type = r.req.msg_type := by
  rcases h.place with ⟨-, hmsgs⟩ | ⟨-, htype, -⟩
  · rw [hmsgs]
  · exact htype

/-- It is in neither a ring nor a burst, and so no tool waits for it. -/
theorem Sent.ne_of_alone (h : Sent cfg s r) (hrings : ∀ p < cfg.procs, ∀ i < FF_MSG_NUM, m ∉ s.ipc.ring p i)
    (hbursts : ∀ p < cfg.procs, m ∉ s.burst p) :
    r.m ≠ m := by
  rintro rfl
  rcases h.placed with (hin | hin) | ⟨hi, hin⟩
  · exact hrings _ h.proc 0 (by decide) hin
  · exact hbursts _ h.proc hin
  · exact hrings _ h.proc _ hi hin

/-! ## What a step keeps -/

/-- What a step leaves of a message: what it says, what it was answered, and where it is at a process. -/
structure Spared (s s' : ToolSys σ α) (x : ℕ) : Prop where
  msgs : s'.ipc.msgs x = s.ipc.msgs x
  handled : s'.handled x = s.handled x
  queued : ∀ p, x ∈ s.ipc.ring p 0 ∨ x ∈ s.burst p → x ∈ s'.ipc.ring p 0 ∨ x ∈ s'.burst p
  replied : ∀ p i, 0 < i → x ∈ s.ipc.ring p i → x ∈ s'.ipc.ring p i

/-- Where the rings stay as they are. -/
theorem Spared.of_rings (hring : s'.ipc.ring = s.ipc.ring) (hburst : s'.burst = s.burst)
    (hmsgs : s'.ipc.msgs x = s.ipc.msgs x) (hhandled : s'.handled x = s.handled x) : Spared s s' x := by
  refine ⟨hmsgs, hhandled, fun p hin => ?_, fun p i _ hin => ?_⟩
  · rwa [hring, hburst]
  · rwa [hring]

theorem Sent.spared (h : Sent cfg s r) (hrequest : s'.request r.m = s.request r.m) (hx : Spared s s' r.m) :
    Sent cfg s' r := by
  refine ⟨h.proc, hrequest.trans h.request, h.type, ?_⟩
  rw [OnItsWay, hx.msgs, hx.handled]
  exact h.place.imp (And.imp_left (hx.queued r.proc)) (And.imp_left (And.imp_right (hx.replied r.proc _ h.type)))

theorem AnswerInv.one (h : AnswerInv cfg objs s) (hobjs : objs.Nodup) (x : ℕ) : placeCount cfg s x ≤ 1 := by
  rw [h.places x]
  exact List.nodup_iff_count_le_one.mp hobjs x

/-- A tool in a call is one of the tools. -/
theorem AnswerInv.tool_lt (h : AnswerInv cfg objs s) (hphase : phaseRequest (s.tools t) = some r) : t < cfg.tools := by
  by_contra hle
  rw [h.idle t (Nat.not_lt.mp hle)] at hphase
  cases hphase

/-- What is left to show of a step in which no call begins and no tool begins to wait. -/
theorem AnswerInv.of_step (h : AnswerInv cfg objs s) (hplaces : ∀ x, placeCount cfg s' x = placeCount cfg s x)
    (hrequest : s'.request = s.request) (hcalls : s'.calls = s.calls)
    (htools : ∀ u, s'.tools u = s.tools u ∨ s'.tools u = .idle)
    (hhandled : ∀ m a, s'.handled m = some a → s.handled m = some a ∨ a.call = s.request m)
    (hheld : ∀ u r, s'.tools u = .holding r → s'.ipc.msgs r.m = s.ipc.msgs r.m)
    (hsent : ∀ u r, s'.tools u = .waiting r → Sent cfg s r → Sent cfg s' r) : AnswerInv cfg objs s' := by
  have hbefore : ∀ u phase, s'.tools u = phase → phase ≠ .idle → s.tools u = phase := by
    intro u phase hu hbusy
    rcases htools u with heq | heq
    · rw [← heq]
      exact hu
    · exact absurd (hu.symm.trans heq) hbusy
  have hphase : ∀ u r, phaseRequest (s'.tools u) = some r → phaseRequest (s.tools u) = some r := by
    intro u r hu
    rcases htools u with heq | heq
    · rwa [← heq]
    · rw [heq] at hu
      cases hu
  constructor
  case places => exact fun x => (hplaces x).trans (h.places x)
  case idle =>
    intro t ht
    rcases htools t with heq | heq
    · exact heq.trans (h.idle t ht)
    · exact heq
  case known =>
    intro m
    rw [hrequest, hcalls]
    exact h.known m
  case answered =>
    intro m a ha
    rw [hcalls]
    rcases hhandled m a ha with hold | hnew
    · exact h.answered m a hold
    · rw [hnew]
      exact h.known m
  case called =>
    intro t r ht
    rw [hcalls]
    exact h.called t r (hphase t r ht)
  case filled =>
    intro t r ht
    rw [hrequest]
    exact h.filled t r (hphase t r ht)
  case handled =>
    intro t r ht m a ha hcall
    rcases hhandled m a ha with hold | hnew
    · exact h.handled t r (hphase t r ht) m a hold hcall
    · exact h.filled t r (hphase t r ht) m (hnew.symm.trans hcall)
  case single =>
    exact fun t u r r' ht hu => h.single t u r r' (hbefore t _ ht (by simp)) (hbefore u _ hu (by simp))
  case held =>
    intro t r ht
    have hold := h.held t r (hbefore t _ ht (by simp))
    exact ⟨(congrFun hrequest r.m).trans hold.request, (hheld t r ht).trans hold.msgs, hold.type⟩
  case sent => exact fun t r ht => hsent t r ht (h.sent t r (hbefore t _ ht (by simp)))

/-- A step that changes one message, which is in the pool then, and for which no tool waits. -/
theorem AnswerInv.of_pooled (h : AnswerInv cfg objs s) (hobjs : objs.Nodup) (hpool : m ∈ s'.ipc.pool)
    (hspared : ∀ x, x ≠ m → Spared s s' x) (hplaces : ∀ x, placeCount cfg s' x = placeCount cfg s x)
    (hrequest : s'.request = s.request) (hcalls : s'.calls = s.calls)
    (htools : ∀ u, s'.tools u = s.tools u ∨ s'.tools u = .idle)
    (hhandled : ∀ x a, s'.handled x = some a → s.handled x = some a ∨ a.call = s.request x)
    (hwaits : ∀ u r, s'.tools u = .waiting r → Sent cfg s r → r.m ≠ m) : AnswerInv cfg objs s' := by
  have hone : placeCount cfg s' m ≤ 1 := by
    rw [hplaces m]
    exact h.one hobjs m
  refine h.of_step hplaces hrequest hcalls htools hhandled (fun u r hu => ?_) fun u r hu hsent =>
    hsent.spared (congrFun hrequest r.m) (hspared r.m (hwaits u r hu hsent))
  refine (hspared r.m ?_).msgs
  have hlt : u < cfg.tools := by
    rcases htools u with heq | heq
    · refine h.tool_lt (r := r) ?_
      rw [← heq, hu]
      rfl
    · cases heq.symm.trans hu
  exact (pool_alone hone hpool).2.2 u hlt r hu

/-! ## Steps -/

/-- One tool has gone on to the phase `phase`. -/
theorem phase_update_cases {phase' : ToolPhase α} (h : Function.update tools t phase u = phase') :
    u = t ∧ phase = phase' ∨ u ≠ t ∧ tools u = phase' := by
  by_cases hu : u = t
  · rw [hu, Function.update_self] at h
    exact .inl ⟨hu, h⟩
  · rw [Function.update_of_ne hu] at h
    exact .inr ⟨hu, h⟩

theorem request_update_cases (h : phaseRequest (Function.update tools t phase u) = some r) :
    u = t ∧ phaseRequest phase = some r ∨ u ≠ t ∧ phaseRequest (tools u) = some r := by
  rcases phase_update_cases (rfl : Function.update tools t phase u = _) with ⟨hu, hphase⟩ | ⟨hu, hphase⟩
  · exact .inl ⟨hu, hphase ▸ h⟩
  · exact .inr ⟨hu, hphase ▸ h⟩

/-- One call has ended. -/
theorem update_idle_cases (t u : ℕ) :
    Function.update tools t .idle u = tools u ∨ Function.update tools t .idle u = .idle := by
  by_cases hu : u = t
  · rw [hu, Function.update_self]
    exact .inr rfl
  · rw [Function.update_of_ne hu]
    exact .inl rfl

/-- A message that is sent has a type. -/
theorem marshal_type_pos {inet6 : Bool} {buf : ℕ} {granted : Bool} {call : ToolCall} {msg : FfMsg α} :
    (call.marshal inet6 buf granted msg).send = true →
      0 < (call.marshal inet6 buf granted msg).msg.msg_type := by
  cases call with
  | sysctl a =>
    rw [ToolCall.marshal, marshalSysctl]
    dsimp only
    split
    · split
      · exact fun _ => (by decide : 0 < FF_SYSCTL)
      · exact fun h => by cases h
    · exact fun _ => (by decide : 0 < FF_SYSCTL)
  | ioctl com more =>
    rw [ToolCall.marshal, marshalIoctl]
    dsimp only
    split
    · exact fun h => by cases h
    split
    · exact fun h => by cases h
    · rename_i type hsome
      have hpos : 0 < type := by
        split at hsome
        · obtain rfl := Option.some.inj hsome
          decide
        · split at hsome
          · obtain rfl := Option.some.inj hsome
            decide
          · cases hsome
      split
      · split
        · exact fun h => by cases h
        · exact fun _ => hpos
      · exact fun _ => hpos
  | rtioctl len =>
    rw [ToolCall.marshal, marshalRtioctl]
    split
    · exact fun h => by cases h
    · exact fun _ => (by decide : 0 < FF_ROUTE)
  | ngctl c =>
    rw [ToolCall.marshal, marshalNgctl]
    split
    · exact fun h => by cases h
    · exact fun _ => (by decide : 0 < FF_NGCTL)
  | ipfwGet optval optlen | ipfwSet optlen =>
    rw [ToolCall.marshal, marshalIpfw]
    split
    · exact fun h => by cases h
    · exact fun _ => (by decide : 0 < FF_IPFW_CTL)
  | top => exact fun _ => (by decide : 0 < FF_TOP)
  | traffic => exact fun _ => (by decide : 0 < FF_TRAFFIC)
  | knictl => exact fun _ => (by decide : 0 < FF_KNICTL)

/-- What a call has filled is new to everybody else. -/
theorem AnswerInv.beginCall (h : AnswerInv cfg objs s) (hobjs : objs.Nodup) (ht : t < cfg.tools)
    (hidle : s.tools t = .idle) (hm : m ∈ s.ipc.pool) (proc : ℕ) (call : ToolCall) (args : MsgArgs α) (granted : Bool) :
    AnswerInv cfg objs (s.beginCall cfg t proc call m args granted) := by
  have hplaces := @beginCall_placeCount σ α cfg s t m ht hidle hm proc call args granted
  obtain ⟨hrings, hbursts, htools⟩ := pool_alone (h.one hobjs m) hm
  have htype := @marshal_type_pos α cfg.build.inet6 s.extras.length granted call (s.ipc.msgs m)
  rw [ToolSys.beginCall] at hplaces ⊢
  dsimp only at hplaces ⊢
  split
  · rename_i hsend
    rw [if_pos hsend] at hplaces
    have hwaiting : ∀ {own} u r, Function.update s.tools t (.holding own) u = .waiting r →
        s.tools u = .waiting r := by
      intro own u r hu
      rcases phase_update_cases hu with ⟨-, heq⟩ | ⟨-, hu⟩
      · cases heq
      · exact hu
    constructor
    case places => exact fun x => (hplaces x).trans (h.places x)
    case idle => exact fun u hu => (Function.update_of_ne (by omega) _ _).trans (h.idle u hu)
    case known =>
      intro x
      show Function.update s.request m (s.calls + 1) x ≤ s.calls + 1
      by_cases hx : x = m
      · rw [hx, Function.update_self]
      · rw [Function.update_of_ne hx]
        exact (h.known x).trans (Nat.le_succ _)
    case answered => exact fun x a ha => (h.answered x a ha).trans (Nat.le_succ _)
    case called =>
      intro u r hu
      rcases request_update_cases hu with ⟨-, heq⟩ | ⟨-, hu⟩
      · cases heq
        exact Nat.le_refl _
      · exact (h.called u r hu).trans (Nat.le_succ _)
    -- the new call is later than all others
    case filled =>
      intro u r hu x hx
      change Function.update s.request m (s.calls + 1) x = r.call at hx
      rcases request_update_cases hu with ⟨-, heq⟩ | ⟨-, hu⟩
      · cases heq
        by_contra hne
        have hknown := h.known x
        dsimp only at hx hne
        rw [Function.update_of_ne hne] at hx
        omega
      · by_cases hxm : x = m
        · rw [hxm, Function.update_self] at hx
          have hcalled := h.called u r hu
          omega
        · rw [Function.update_of_ne hxm] at hx
          exact h.filled u r hu x hx
    case handled =>
      intro u r hu x a ha hcall
      rcases request_update_cases hu with ⟨-, heq⟩ | ⟨-, hu⟩
      · cases heq
        have hanswered := h.answered x a ha
        dsimp only at hcall
        omega
      · exact h.handled u r hu x a ha hcall
    case single => exact fun u v r r' hu hv => h.single u v r r' (hwaiting u r hu) (hwaiting v r' hv)
    case held =>
      intro u r hu
      rcases phase_update_cases hu with ⟨-, heq⟩ | ⟨-, hu⟩
      · cases heq
        exact ⟨Function.update_self _ _ _, IpcState.setMsg_self _ _ _, htype hsend⟩
      · have hne := htools u (h.tool_lt (by rw [hu]; rfl)) r hu
        have hold := h.held u r hu
        exact ⟨(Function.update_of_ne hne _ _).trans hold.request, (IpcState.setMsg_of_ne _ _ hne).trans hold.msgs,
          hold.type⟩
    case sent =>
      intro u r hu
      have hsent := h.sent u r (hwaiting u r hu)
      have hne := hsent.ne_of_alone hrings hbursts
      exact hsent.spared (Function.update_of_ne hne _ _) (.of_rings rfl rfl (IpcState.setMsg_of_ne _ _ hne) rfl)
  · rename_i hsend
    rw [if_neg hsend] at hplaces
    refine h.of_pooled hobjs (m := m) ?_ (fun x hx => ?_) hplaces rfl rfl (fun _ => .inl rfl) (fun _ _ => .inl)
      fun u r _ hsent => hsent.ne_of_alone hrings hbursts
    · exact mem_release_pool _ m
    · exact .of_rings (release_ring _ m) rfl ((release_others _ hx).trans (IpcState.setMsg_of_ne _ _ hx)) rfl

/-- What `rte_ring_enqueue` does. -/
theorem enqueue_eq (h : st.enqueue p i m = some st') :
    st'.msgs = st.msgs ∧ st'.pool = st.pool ∧
      st'.ring = Function.update st.ring p (Function.update (st.ring p) i (st.ring p i ++ [m])) := by
  rw [IpcState.enqueue] at h
  split at h
  · obtain rfl := Option.some.inj h
    exact ⟨rfl, rfl, rfl⟩
  · cases h

/-- What was in a ring is there when a message has been put into one. -/
theorem mem_enqueued (h : x ∈ ring q j) :
    x ∈ Function.update ring p (Function.update (ring p) i (ring p i ++ [m])) q j := by
  by_cases hq : q = p
  · subst hq
    rw [Function.update_self]
    by_cases hj : j = i
    · subst hj
      rw [Function.update_self]
      exact List.mem_append_left _ h
    · rwa [Function.update_of_ne hj]
  · rwa [Function.update_of_ne hq]

/-- The other rings stay as they are. -/
theorem ring_update_of_ne {l : List ℕ} (h : ¬(q = p ∧ j = i)) :
    Function.update ring p (Function.update (ring p) i l) q j = ring q j := by
  by_cases hq : q = p
  · subst hq
    rw [Function.update_self, Function.update_of_ne fun hj => h ⟨rfl, hj⟩]
  · rw [Function.update_of_ne hq]

theorem AnswerInv.sendCall (h : AnswerInv cfg objs s) (hobjs : objs.Nodup) (ht : t < cfg.tools)
    (hsafe : AloneSafe cfg s (.send t)) : AnswerInv cfg objs (s.sendCall cfg t) := by
  have hplaces := @sendCall_placeCount σ α cfg s t ht
  rw [AloneSafe] at hsafe
  rw [ToolSys.sendCall] at hplaces ⊢
  cases hphase : s.tools t with
  | idle => exact h
  | waiting r => exact h
  | holding r =>
    rw [hphase] at hplaces hsafe
    have hheld := h.held t r hphase
    have hown : phaseRequest (s.tools t) = some r := by rw [hphase]; rfl
    obtain ⟨hrings, hbursts⟩ := held_alone (h.one hobjs r.m) ht hphase
    have hlone : ∀ u r', s.tools u = .waiting r' → r'.proc = r.proc → r'.req.msg_type ≠ r.req.msg_type := by
      intro u r' hu hproc htype
      have hnot := hsafe u (h.tool_lt (r := r') (by rw [hu]; rfl))
      rw [hu] at hnot
      exact hnot ⟨hproc, htype⟩
    dsimp only at hplaces ⊢
    split
    · rename_i ipc hsent
      rw [hsent] at hplaces
      split at hsent
      · rename_i hproc
        obtain ⟨hmsgs, -, hring⟩ := enqueue_eq hsent
        have hold : ∀ q j x, x ∈ s.ipc.ring q j → x ∈ ipc.ring q j := by
          intro q j x hx
          rw [hring]
          exact mem_enqueued hx
        have hin : r.m ∈ ipc.ring r.proc 0 := by
          rw [hring, Function.update_self, Function.update_self]
          exact List.mem_append_right _ (List.mem_singleton_self r.m)
        have hcall : ∀ u r', phaseRequest (Function.update s.tools t (.waiting r) u) = some r' →
            phaseRequest (s.tools u) = some r' := by
          intro u r' hu
          rcases request_update_cases hu with ⟨hut, heq⟩ | ⟨-, hu⟩
          · cases heq
            rw [hut]
            exact hown
          · exact hu
        constructor
        case places => exact fun x => (hplaces x).trans (h.places x)
        case idle => exact fun u hu => (Function.update_of_ne (by omega) _ _).trans (h.idle u hu)
        case known => exact h.known
        case answered => exact h.answered
        case called => exact fun u r' hu => h.called u r' (hcall u r' hu)
        case filled => exact fun u r' hu => h.filled u r' (hcall u r' hu)
        case handled => exact fun u r' hu => h.handled u r' (hcall u r' hu)
        case single =>
          intro u v r₁ r₂ hu hv hproc htype
          rcases phase_update_cases hu with ⟨hut, heq⟩ | ⟨-, hu⟩
          · cases heq
            rcases phase_update_cases hv with ⟨hvt, -⟩ | ⟨-, hv⟩
            · rw [hut, hvt]
            · exact absurd htype (hlone v r₂ hv hproc)
          · rcases phase_update_cases hv with ⟨-, heq⟩ | ⟨-, hv⟩
            · cases heq
              exact absurd htype.symm (hlone u r₁ hu hproc.symm)
            · exact h.single u v r₁ r₂ hu hv hproc htype
        case held =>
          intro u r' hu
          rcases phase_update_cases hu with ⟨-, heq⟩ | ⟨-, hu⟩
          · cases heq
          · have hother := h.held u r' hu
            exact ⟨hother.request, (congrFun hmsgs r'.m).trans hother.msgs, hother.type⟩
        case sent =>
          intro u r' hu
          rcases phase_update_cases hu with ⟨-, heq⟩ | ⟨-, hu⟩
          · cases heq
            exact ⟨hproc, hheld.request, hheld.type, .inl ⟨.inl hin, (congrFun hmsgs r.m).trans hheld.msgs⟩⟩
          · exact (h.sent u r' hu).spared rfl ⟨congrFun hmsgs r'.m, rfl, fun p => Or.imp_left (hold p 0 r'.m),
              fun p i _ => hold p i r'.m⟩
      · cases hsent
    · rename_i hnone
      rw [hnone] at hplaces
      refine h.of_pooled hobjs (m := r.m) ?_ (fun x hx => ?_) hplaces rfl rfl (update_idle_cases t) (fun _ _ => .inl)
        fun u r' _ hsent => hsent.ne_of_alone hrings hbursts
      · exact mem_release_pool _ r.m
      · exact .of_rings (release_ring _ r.m) rfl (release_others _ hx) rfl

/-- A tool that looks into the ring of its type finds a reply. -/
theorem received_eq (h : s.received cfg r = some (ipc, m)) :
    r.proc < cfg.procs ∧ ∃ i rest, i = (s.ipc.msgs r.m).msg_type ∧ 0 < i ∧ i < FF_MSG_NUM ∧
      s.ipc.ring r.proc i = m :: rest ∧ ipc.msgs = s.ipc.msgs ∧
      ipc.ring = Function.update s.ipc.ring r.proc (Function.update (s.ipc.ring r.proc) i rest) := by
  rw [ToolSys.received] at h
  split at h
  · rename_i hring
    obtain ⟨hproc, hpos, hlt⟩ := hring
    rw [IpcState.dequeue] at h
    split at h
    · cases h
    · rename_i m' rest hlist
      obtain ⟨rfl, rfl⟩ := Prod.mk.inj (Option.some.inj h)
      exact ⟨hproc, _, rest, rfl, hpos, hlt, hlist, rfl, rfl⟩
  · cases h

/-- **What a tool takes out of a ring no other tool waits for.** -/
theorem AnswerInv.taken (h : AnswerInv cfg objs s) (hobjs : objs.Nodup) {r' : ToolRequest α}
    (hphase : s.tools t = .waiting r) (hrecv : s.received cfg r = some (ipc, m)) (hu : s.tools u = .waiting r')
    (hm : r'.m = m) : u = t := by
  subst hm
  obtain ⟨hproc, i, rest, htype, hpos, hi, hlist, -, -⟩ := received_eq hrecv
  have hring : r'.m ∈ s.ipc.ring r.proc i := by
    rw [hlist]
    exact List.mem_cons_self
  have hone := h.one hobjs r'.m
  have hsent := h.sent u r' hu
  rcases hsent.placed with (hin | hin) | ⟨hj, hin⟩
  · obtain ⟨-, hzero⟩ := ring_unique hone hproc hsent.proc hi (by decide) hring hin
    omega
  · exact absurd hin ((ring_alone hone hproc hi hring).1 _ hsent.proc)
  · obtain ⟨hsame, hkind⟩ := ring_unique hone hproc hsent.proc hi hj hring hin
    refine h.single t u r r' hphase hu hsame ?_
    rw [hkind, htype, (h.sent t r hphase).msg_type]

theorem AnswerInv.recvCall (h : AnswerInv cfg objs s) (hobjs : objs.Nodup) (ht : t < cfg.tools) :
    AnswerInv cfg objs (s.recvCall cfg t) := by
  have hplaces := @recvCall_placeCount σ α cfg s t ht
  rw [ToolSys.recvCall] at hplaces ⊢
  cases hphase : s.tools t with
  | idle => exact h
  | holding r => exact h
  | waiting r =>
    rw [hphase] at hplaces
    dsimp only at hplaces ⊢
    cases hrecv : s.received cfg r with
    | none => exact h
    | some found =>
      obtain ⟨ipc, m⟩ := found
      rw [hrecv] at hplaces
      obtain ⟨hproc, i, rest, -, hpos, hi, hlist, hmsgs, hring⟩ := received_eq hrecv
      dsimp only at hplaces ⊢
      have hpool : m ∈ (ipc.release m).pool := mem_release_pool ipc m
      have hrest : ∀ p j x, x ≠ m → x ∈ s.ipc.ring p j → x ∈ (ipc.release m).ring p j := by
        intro p j x hx hin
        rw [release_ring, hring]
        by_cases hat : p = r.proc ∧ j = i
        · rw [hat.1, hat.2, hlist] at hin
          rw [hat.1, hat.2, Function.update_self, Function.update_self]
          exact (List.mem_cons.mp hin).resolve_left hx
        · rwa [ring_update_of_ne hat]
      have hspared : ∀ x, x ≠ m → Spared s { s with ipc := ipc.release m } x := fun x hx =>
        ⟨(release_others ipc hx).trans (congrFun hmsgs x), rfl, fun p => Or.imp_left (hrest p 0 x hx),
          fun p j _ => hrest p j x hx⟩
      by_cases hm : m = r.m
      · rw [if_pos hm] at hplaces ⊢
        refine h.of_pooled hobjs hpool (fun x hx => ?_) hplaces rfl rfl (update_idle_cases t) (fun _ _ => .inl)
          fun u r' hu _ heq => ?_
        · have hx := hspared x hx
          exact ⟨hx.msgs, rfl, hx.queued, hx.replied⟩
        · rcases phase_update_cases hu with ⟨-, hidle⟩ | ⟨hut, hu⟩
          · cases hidle
          · exact hut (h.taken hobjs hphase hrecv hu heq)
      · rw [if_neg hm] at hplaces ⊢
        refine h.of_pooled hobjs hpool hspared hplaces rfl rfl (fun _ => .inl rfl) (fun _ _ => .inl)
          fun u r' hu _ heq => ?_
        obtain rfl := h.taken hobjs hphase hrecv hu heq
        cases hphase.symm.trans hu
        exact hm heq.symm

theorem AnswerInv.timeoutCall (h : AnswerInv cfg objs s) (ht : t < cfg.tools) (hsafe : KeepsPlaces s (.timeout t)) :
    AnswerInv cfg objs (s.timeoutCall t) := by
  have hplaces := @timeoutCall_placeCount σ α cfg s t ht hsafe
  rw [KeepsPlaces] at hsafe
  rw [ToolSys.timeoutCall] at hplaces ⊢
  cases hphase : s.tools t with
  | idle => exact h
  | holding r => exact h
  | waiting r =>
    rw [hphase] at hplaces hsafe
    dsimp only at hplaces hsafe ⊢
    rw [if_neg hsafe] at hplaces ⊢
    exact h.of_step hplaces rfl rfl (update_idle_cases t) (fun _ _ => .inl) (fun _ _ _ => rfl)
      fun _ _ _ hsent => hsent.spared rfl (.of_rings rfl rfl rfl rfl)

theorem AnswerInv.takeBurst (h : AnswerInv cfg objs s) (hp : p < cfg.procs) :
    AnswerInv cfg objs (s.takeBurst p) := by
  have hplaces := @takeBurst_placeCount σ α cfg s p hp
  rw [ToolSys.takeBurst] at hplaces ⊢
  split
  · rename_i hempty
    rw [if_pos hempty] at hplaces
    refine h.of_step hplaces rfl rfl (fun _ => .inl rfl) (fun _ _ => .inl) (fun _ _ _ => rfl) fun _ r _ hsent =>
      hsent.spared rfl ⟨rfl, rfl, fun q hin => ?_, fun q i hpos hin => ?_⟩
    · by_cases hq : q = p
      · subst hq
        rw [hempty] at hin
        have hzero := hin.resolve_right List.not_mem_nil
        rw [← List.take_append_drop MAX_PKT_BURST (s.ipc.ring q 0)] at hzero
        rcases List.mem_append.mp hzero with hin | hin
        · refine Or.inr ?_
          change _ ∈ Function.update s.burst q _ q
          rwa [Function.update_self]
        · refine Or.inl ?_
          change _ ∈ Function.update s.ipc.ring q _ q 0
          rwa [Function.update_self, Function.update_self]
      · refine hin.imp (fun hin => ?_) (fun hin => ?_)
        · change _ ∈ Function.update s.ipc.ring p _ q 0
          rwa [ring_update_of_ne fun hboth => hq hboth.1]
        · change _ ∈ Function.update s.burst p _ q
          rwa [Function.update_of_ne hq]
    · change _ ∈ Function.update s.ipc.ring p _ q i
      rwa [ring_update_of_ne fun hboth => Nat.ne_of_gt hpos hboth.2]
  · exact h

/-- `handle_msg` puts its answer into the ring of its type, or gives it back when that is full. -/
theorem handleMsg_cases {b : MsgBuild} {c : StackCalls σ α} (h : handleMsg b c p st m = some st') :
    (st'.msgs = (answerMsg b c st m).msgs ∧ (st.msgs m).msg_type < FF_MSG_NUM ∧
      st'.ring = Function.update st.ring p
        (Function.update (st.ring p) (st.msgs m).msg_type (st.ring p (st.msgs m).msg_type ++ [m]))) ∨
      ¬ (st.ring p (st.msgs m).msg_type).length < MSG_RING_CAPACITY ∧ st' = (answerMsg b c st m).release m := by
  have hans := answered_answerMsg b c st m
  rw [handleMsg, hans.msg_type] at h
  split at h
  · rename_i htype
    split at h
    · rename_i st₁ henq
      obtain rfl := Option.some.inj h
      obtain ⟨hmsgs, -, hring⟩ := enqueue_eq henq
      rw [hans.ring] at hring
      exact .inl ⟨hmsgs, htype, hring⟩
    · rename_i hfull
      obtain rfl := Option.some.inj h
      rw [IpcState.enqueue, hans.ring] at hfull
      refine .inr ⟨fun hroom => ?_, rfl⟩
      rw [if_pos hroom] at hfull
      cases hfull
  · cases h

theorem AnswerInv.handleNext (h : AnswerInv cfg objs s) (hobjs : objs.Nodup) (hp : p < cfg.procs)
    (hsafe : AloneSafe cfg s (.handle p)) : AnswerInv cfg objs (s.handleNext cfg p) := by
  have hplaces := @handleNext_placeCount σ α cfg s p hp
  rw [AloneSafe] at hsafe
  rw [ToolSys.handleNext] at hplaces ⊢
  cases hburst : s.burst p with
  | nil => exact h
  | cons m rest =>
    rw [hburst] at hplaces hsafe
    dsimp only at hplaces ⊢
    have hans := answered_answerMsg cfg.build cfg.stack s.ipc m
    have hin : m ∈ s.burst p := by
      rw [hburst]
      exact List.mem_cons_self
    have hleft : ∀ x, x ≠ m → ∀ q, x ∈ s.burst q → x ∈ Function.update s.burst p rest q := by
      intro x hx q hq
      by_cases hqp : q = p
      · subst hqp
        rw [hburst] at hq
        rw [Function.update_self]
        exact (List.mem_cons.mp hq).resolve_left hx
      · rwa [Function.update_of_ne hqp]
    have hnew : ∀ {answer : HandledMsg α}, answer.call = s.request m → ∀ x a,
        Function.update s.handled m (some answer) x = some a → s.handled x = some a ∨ a.call = s.request x := by
      intro answer hcall x a ha
      by_cases hx : x = m
      · rw [hx, Function.update_self] at ha
        obtain rfl := Option.some.inj ha
        exact .inr (hx ▸ hcall)
      · rw [Function.update_of_ne hx] at ha
        exact .inl ha
    cases hhandled : handleMsg cfg.build cfg.stack p s.ipc m with
    | none => exact h
    | some ipc =>
      rw [hhandled] at hplaces
      dsimp only at hplaces ⊢
      rcases handleMsg_cases hhandled with ⟨hmsgs, htype, hring⟩ | ⟨hfull, rfl⟩
      · have hrings : ∀ q j x, x ∈ s.ipc.ring q j → x ∈ ipc.ring q j := by
          intro q j x hx
          rw [hring]
          exact mem_enqueued hx
        refine h.of_step hplaces rfl rfl (fun _ => .inl rfl) (hnew rfl) (fun u r hu => ?_) fun u r hu hsent => ?_
        · have hne : m ≠ r.m := by
            rintro rfl
            have hlt := h.tool_lt (r := r) (t := u) (by rw [show s.tools u = .holding r from hu]; rfl)
            exact (held_alone (h.one hobjs r.m) hlt hu).2 p hp hin
          exact (congrFun hmsgs r.m).trans (hans.others r.m hne.symm)
        · by_cases hrm : r.m = m
          · -- the tool waits for what is answered now
            subst hrm
            have hnone := burst_alone (h.one hobjs r.m) hp hin
            have hplace : r.proc = p ∧ s.ipc.msgs r.m = r.req := by
              rcases hsent.place with ⟨hat | hat, hreq⟩ | ⟨⟨hi, hat⟩, -⟩
              · exact absurd hat (hnone _ hsent.proc 0 (by decide))
              · exact ⟨burst_unique (h.one hobjs r.m) hsent.proc hp hat hin, hreq⟩
              · exact absurd hat (hnone _ hsent.proc _ hi)
            obtain ⟨rfl, hreq⟩ := hplace
            refine ⟨hsent.proc, hsent.request, hsent.type, .inr ⟨⟨hreq ▸ htype, ?_⟩, ?_, ?_⟩⟩
            · dsimp only
              rw [hring, hreq, Function.update_self, Function.update_self]
              exact List.mem_append_right _ (List.mem_singleton_self r.m)
            · exact (congrArg FfMsg.msg_type (congrFun hmsgs r.m)).trans (hans.msg_type.trans (by rw [hreq]))
            · dsimp only
              rw [Function.update_self, hmsgs, hsent.request, hreq]
          · exact hsent.spared rfl ⟨(congrFun hmsgs r.m).trans (hans.others r.m hrm), Function.update_of_ne hrm _ _,
              fun q => Or.imp (hrings q 0 r.m) (hleft r.m hrm q), fun q i _ => hrings q i r.m⟩
      · refine h.of_pooled hobjs (m := m) ?_ (fun x hx => ?_) hplaces rfl rfl (fun _ => .inl rfl) (hnew rfl)
          fun u r hu _ hrm => ?_
        · exact mem_release_pool _ m
        · refine ⟨(release_others _ hx).trans (hans.others x hx), Function.update_of_ne hx _ _,
            fun q => Or.imp (fun hq => ?_) (hleft x hx q), fun q i _ hq => ?_⟩
          · rw [release_ring, hans.ring]
            exact hq
          · rw [release_ring, hans.ring]
            exact hq
        · have hwaiting : s.tools u = .waiting r := hu
          refine hfull (hsafe ⟨u, h.tool_lt (r := r) (by rw [hwaiting]; rfl), ?_⟩)
          rw [hwaiting]
          exact hrm

/-- **Every safe step keeps the invariant.** -/
theorem AnswerInv.step (h : AnswerInv cfg objs s) (hobjs : objs.Nodup) {a : ToolStep α}
    (hsafe : OwnAnswerSafe cfg s a) : AnswerInv cfg objs (s.step cfg a) := by
  cases a with
  | begin t proc call m args granted =>
    rw [ToolSys.step]
    cases hphase : s.tools t with
    | idle =>
      dsimp only
      split
      · rename_i hbegin
        exact h.beginCall hobjs hbegin.1 hphase hbegin.2.2 proc call args granted
      · exact h
    | holding r => exact h
    | waiting r => exact h
  | send t =>
    rw [ToolSys.step]
    split
    · exact h.sendCall hobjs ‹_› hsafe.2
    · exact h
  | recv t =>
    rw [ToolSys.step]
    split
    · exact h.recvCall hobjs ‹_›
    · exact h
  | timeout t =>
    rw [ToolSys.step]
    split
    · exact h.timeoutCall ‹_› hsafe.1
    · exact h
  | take p =>
    rw [ToolSys.step]
    split
    · exact h.takeBurst ‹_›
    · exact h
  | handle p =>
    rw [ToolSys.step]
    split
    · exact h.handleNext hobjs ‹_› hsafe.2
    · exact h

/-! ## Right receipts -/

theorem AnswerInv.init {objs : List ℕ} (msgs : ℕ → FfMsg α) (stack : σ) (top : TopArgs) (traffic : TrafficArgs)
    (action : ℤ) : AnswerInv cfg objs (ToolSys.init objs msgs stack top traffic action) where
  places := init_placeCount objs msgs stack top traffic action
  idle _ _ := rfl
  known _ := Nat.le_refl 0
  answered _ _ ha := by cases ha
  called _ _ ht := by cases ht
  filled _ _ ht := by cases ht
  handled _ _ ht := by cases ht
  single _ _ _ _ ht := by cases ht
  held _ _ ht := by cases ht
  sent _ _ ht := by cases ht

/-! ## Runs -/

end FStack.Analysis
