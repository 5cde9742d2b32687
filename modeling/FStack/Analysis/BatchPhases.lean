import FStack.Model.MultiAction
import FStack.Prelude.Monitored
import Mathlib.Data.List.Forall2
import Mathlib.Data.List.TakeWhile

/-!
# The phases of a batch

The receive phase keeps its promises.  The send phase takes every result of `SendData` but -1 and 0 for a request that
was sent, and `mt_multi_open` returns 0 at the end of its time exactly when no action had been seen open.
-/

set_option autoImplicit false

namespace FStack.Analysis

open FStack.Model FStack.Prelude

variable {p : Phase} {acts : List IMtAction} {round : Round} {b : Batch}
variable {action : IMtAction} {calls : List (IMtAction × CallAnswer)} {v : Visit} {visits visits' : List Visit}
variable {P : Visit → Prop} {conn : IMtConnection} {buf : MtMsgBuf}

/-! ## What is expected -/

/-- An action that can be sent. -/
def Sendable (action : IMtAction) : Prop := action.errno = .errNone ∧ action.flag = .flagOpen

/-- What `SendData` returned is the length of the message. -/
def SentWhole (v : Visit) : Prop :=
  ∃ ret ∈ v.ret, ∃ conn ∈ v.before.conn, ∃ buf ∈ conn.msg_buff, ret = buf.msg_len

/-- When `mt_multi_open` returns, it returns 0 if and only if an action is open, and the batch goes on to the send
phase if and only if an action can be sent. -/
structure OpenPassRight (acts : List IMtAction) (next : Batch) (ret : ℤ) : Prop where
  returns : ret = 0 ↔ ∃ action ∈ acts, action.flag = .flagOpen
  goesOn : next.stage = .sending ↔ ∃ action ∈ acts, Sendable action

/-- An action gets the flag of the send phase only if its whole message was sent, and an error if `SendData` returned
an error. -/
structure SendVisitRight (v : Visit) : Prop where
  marked : v.after.flag = .flagSend → v.before.flag ≠ .flagSend → SentWhole v
  failed : ∀ ret ∈ v.ret, ret < 0 → v.after.errno = .errSendFail

/-- An action gets the flag of the receive phase only if `RecvData` returned something positive. -/
def RecvVisitRight (v : Visit) : Prop :=
  v.after.flag = .flagFin → v.before.flag ≠ .flagFin → ∃ ret ∈ v.ret, 0 < ret

/-- What is expected of a pass. -/
def PhaseRight (b : Batch) (round : Round) : Prop :=
  match b.stage, b.pass round with
  | .opening, some ⟨visits, _, some ret⟩ => OpenPassRight (visits.map (·.after)) (b.step round) ret
  | .sending, some ⟨visits, _, _⟩ => ∀ v ∈ visits, SendVisitRight v
  | .receiving, some ⟨visits, _, ret⟩ =>
    (∀ v ∈ visits, RecvVisitRight v) ∧
      (ret = some (-5) → ∀ v ∈ visits, v.after.flag = .flagFin ∨ v.after.errno ≠ .errNone)
  | _, _ => True

/-! ## The condition -/

/-- The actions that a scan comes to, with what their connections meet. -/
def reached (p : Phase) (acts : List IMtAction) (round : Round) : List (IMtAction × CallAnswer) :=
  (round.calls acts).takeWhile fun x => !p.stops x.1

/-- A connection that is not open opens in this pass. -/
def Opens (x : IMtAction × CallAnswer) : Prop :=
  mtMultiOpen.tries x.1 ∧ ∃ conn ∈ x.1.conn, 0 ≤ conn.openCnnect x.2

/-- A connection that is not open does not open in this pass. -/
def StaysClosed (x : IMtAction × CallAnswer) : Prop :=
  mtMultiOpen.tries x.1 ∧ ∃ conn ∈ x.1.conn, conn.openCnnect x.2 < 0

/-- If `mt_multi_open` ends in this pass: at a connection that is `NULL`, no action is open and none opens in this
pass; after the time limit, no action could be sent before this pass, and one opens in it; otherwise an action can be
sent or opens in this pass. -/
def OpenSafe (end_ms : ℕ) (acts : List IMtAction) (round : Round) : Prop :=
  if acts.any mtMultiOpen.stops then
    (∀ action ∈ acts, action.flag ≠ .flagOpen) ∧ ∀ x ∈ reached mtMultiOpen acts round, ¬ Opens x
  else if end_ms < round.clock then
    (∀ action ∈ acts, ¬ Sendable action) ∧ ∃ x ∈ round.calls acts, Opens x
  else
    (∃ x ∈ round.calls acts, StaysClosed x) ∨ (∃ action ∈ acts, Sendable action) ∨
      ∃ x ∈ round.calls acts, Opens x

/-- What a connection meets in the send phase: its parameters are there; over UDP, the call of `sendto` fails only
with an error that is tried again, and takes nothing or all of the message; over TCP, no message whose length is below
-1 is sent whole. -/
def SendSafe (conn : IMtConnection) (answer : CallAnswer) : Prop :=
  match conn.type, conn.msg_buff with
  | .connUndef, _ => True
  | _, none => False
  | .tcpKeep, some buf =>
    conn.action ∧ (answer.ret = -1 ∨ buf.have_snd_len + answer.ret < buf.msg_len ∨ -1 ≤ buf.msg_len)
  | type, some buf =>
    conn.action ∧ (type = .udpSession → conn.ntfy_obj) ∧
      (if answer.ret = -1 then IMtConnection.again answer.errno
      else answer.ret = 0 ∨ 0 < answer.ret ∧ answer.ret = buf.msg_len)

/-- The condition on the state before a pass and what the world does in it. -/
def PhaseSafe (b : Batch) (round : Round) : Prop :=
  match b.stage with
  | .opening => OpenSafe b.end_ms b.acts round
  | .sending =>
    ∀ x ∈ reached mtMultiSendto b.acts round, mtMultiSendto.tries x.1 → ∀ conn ∈ x.1.conn, SendSafe conn x.2
  | _ => True

/-! ## A scan -/

theorem tries_iff : p.tries action ↔ action.errno = .errNone ∧ action.flag ≠ p.flag := by
  simp [Phase.tries]

theorem stops_iff : p.stops action ↔ p.tries action ∧ action.conn = none := by
  simp [Phase.stops]

/-- What a scan did with an action: it was visited, or the scan had ended. -/
theorem mem_scan (hv : v ∈ p.scan calls) :
    (∃ x ∈ calls.takeWhile fun x => !p.stops x.1, v = p.visit x.1 x.2) ∨
      ∃ x ∈ calls, v = .skip x.1 ∨ v = (Visit.skip x.1).setErrno .errFrameError := by
  induction calls with
  | nil => cases hv
  | cons x rest ih =>
    unfold Phase.scan at hv
    split at hv
    next hstops =>
      right
      rcases List.mem_cons.mp hv with rfl | hv
      · exact ⟨x, List.mem_cons_self, .inr rfl⟩
      · obtain ⟨y, hy, rfl⟩ := List.mem_map.mp hv
        exact ⟨y, List.mem_cons_of_mem _ hy, .inl rfl⟩
    next hstops =>
      rw [List.takeWhile_cons_of_pos (by simpa using hstops)]
      rcases List.mem_cons.mp hv with rfl | hv
      · exact .inl ⟨x, List.mem_cons_self, rfl⟩
      · rcases ih hv with ⟨y, hy, rfl⟩ | ⟨y, hy, hvy⟩
        · exact .inl ⟨y, List.mem_cons_of_mem _ hy, rfl⟩
        · exact .inr ⟨y, List.mem_cons_of_mem _ hy, hvy⟩

/-- Every action that the scan comes to is visited. -/
theorem visit_mem_scan {x : IMtAction × CallAnswer} (hx : x ∈ calls.takeWhile fun x => !p.stops x.1) :
    p.visit x.1 x.2 ∈ p.scan calls := by
  induction calls with
  | nil => cases hx
  | cons y rest ih =>
    unfold Phase.scan
    by_cases hstops : p.stops y.1
    · rw [List.takeWhile_cons_of_neg (by simpa using hstops)] at hx
      cases hx
    · rw [List.takeWhile_cons_of_pos (by simpa using hstops)] at hx
      rw [if_neg hstops]
      rcases List.mem_cons.mp hx with rfl | hx
      · exact List.mem_cons_self
      · exact List.mem_cons_of_mem _ (ih hx)

@[simp] theorem calls_map_fst (round : Round) (acts : List IMtAction) : (round.calls acts).map Prod.fst = acts := by
  unfold Round.calls
  rw [List.map_map]
  exact List.zipIdx_map_fst 0 acts

theorem exists_call {P : IMtAction → Prop} :
    (∃ x ∈ round.calls acts, P x.1) ↔ ∃ action ∈ acts, P action := by
  conv_rhs => rw [← calls_map_fst round acts]
  constructor
  · rintro ⟨x, hx, hP⟩
    exact ⟨x.1, List.mem_map_of_mem hx, hP⟩
  · rintro ⟨action, haction, hP⟩
    obtain ⟨x, hx, rfl⟩ := List.mem_map.mp haction
    exact ⟨x, hx, hP⟩

/-- Without a connection that is `NULL` the scan comes to every action. -/
theorem reached_eq (h : acts.any p.stops = false) : reached p acts round = round.calls acts := by
  unfold reached
  rw [List.takeWhile_eq_self_iff]
  intro x hx
  have hmem : x.1 ∈ acts := by
    rw [← calls_map_fst round acts]
    exact List.mem_map_of_mem hx
  have := List.any_eq_false.mp h x.1 hmem
  simpa using this

/-- Without a connection that is `NULL` every action is visited. -/
theorem mem_scan_of_any (h : acts.any p.stops = false) (hv : v ∈ p.scan (round.calls acts)) :
    ∃ x ∈ round.calls acts, p.stops x.1 = false ∧ v = p.visit x.1 x.2 := by
  have hnone : ∀ x ∈ round.calls acts, p.stops x.1 = false := by
    intro x hx
    have hmem : x.1 ∈ acts := by
      rw [← calls_map_fst round acts]
      exact List.mem_map_of_mem hx
    exact Bool.eq_false_iff.mpr (List.any_eq_false.mp h x.1 hmem)
  generalize round.calls acts = calls at hv hnone
  induction calls with
  | nil => cases hv
  | cons x rest ih =>
    have hx := hnone x List.mem_cons_self
    unfold Phase.scan at hv
    rw [if_neg (Bool.eq_false_iff.mp hx)] at hv
    rcases List.mem_cons.mp hv with rfl | hv
    · exact ⟨x, List.mem_cons_self, hx, rfl⟩
    · obtain ⟨y, hy, hrest⟩ := ih hv fun z hz => hnone z (List.mem_cons_of_mem _ hz)
      exact ⟨y, List.mem_cons_of_mem _ hy, hrest⟩

/-! ## After the scan -/

/-- The errors that are set after the scan: only those of waiting actions. -/
def Touched (v v' : Visit) : Prop := v' = v ∨ v.wait = true ∧ ∃ errno, v' = v.setErrno errno

theorem touched_refl (visits : List Visit) : List.Forall₂ Touched visits visits :=
  List.forall₂_same.mpr fun _ _ => .inl rfl

theorem touched_ntfyNull (h : ntfyNull visits = some visits') :
    List.Forall₂ Touched visits visits' := by
  induction visits generalizing visits' with
  | nil => cases h
  | cons v rest ih =>
    unfold ntfyNull at h
    split at h
    next hwait =>
      cases h
      exact .cons (.inr ⟨(Bool.and_eq_true _ _ ▸ hwait).1, _, rfl⟩) (touched_refl rest)
    next =>
      obtain ⟨rest', hrest, rfl⟩ := Option.map_eq_some_iff.mp h
      exact .cons (.inl rfl) (ih hrest)

theorem touched_scheduleFailed (visits : List Visit) : List.Forall₂ Touched visits (scheduleFailed visits) := by
  induction visits with
  | nil => exact .nil
  | cons v rest ih =>
    unfold scheduleFailed
    split
    next hwait => exact .cons (.inr ⟨(Bool.and_eq_true _ _ ▸ hwait).1, _, rfl⟩) (touched_refl rest)
    next => exact .cons (.inl rfl) ih

theorem touched_poll (poll : PollAnswer) (visits : List Visit) :
    List.Forall₂ Touched visits (mtMultiNetfdPoll poll visits) := by
  unfold mtMultiNetfdPoll
  split
  next hnull => exact touched_ntfyNull hnull
  next => exact touched_scheduleFailed visits
  next => exact touched_refl visits

theorem touched_late (errno : MultiError) (visits : List Visit) :
    List.Forall₂ Touched visits (visits.map fun v => if v.wait then v.setErrno errno else v) := by
  induction visits with
  | nil => exact .nil
  | cons v rest ih =>
    refine .cons ?_ ih
    by_cases hwait : v.wait
    · exact .inr ⟨hwait, errno, if_pos hwait⟩
    · exact .inl (if_neg hwait)

/-- What a pass did with the actions is what the scan did, but for the errors of waiting actions. -/
theorem touched_pass (end_ms : ℕ) (seen : Bool) :
    List.Forall₂ Touched (p.scan (round.calls acts)) (p.pass end_ms seen acts round).visits := by
  unfold Phase.pass
  dsimp only
  split
  · exact touched_refl _
  · split
    · exact touched_late _ _
    · split
      · exact touched_poll _ _
      · exact touched_refl _

/-- A statement about each action that the errors of waiting actions do not change. -/
theorem forall_touched (h : List.Forall₂ Touched visits visits')
    (hP : ∀ v ∈ visits, v.wait = true → ∀ errno, P (v.setErrno errno) ↔ P v) :
    (∀ v ∈ visits', P v) ↔ ∀ v ∈ visits, P v := by
  induction h with
  | nil => rfl
  | @cons v v' rest rest' hv _ ih =>
    rw [List.forall_mem_cons, List.forall_mem_cons, ih fun w hw => hP w (List.mem_cons_of_mem _ hw)]
    rcases hv with rfl | ⟨hwait, errno, rfl⟩
    · rfl
    · rw [hP v List.mem_cons_self hwait errno]

theorem exists_touched (h : List.Forall₂ Touched visits visits')
    (hP : ∀ v ∈ visits, v.wait = true → ∀ errno, P (v.setErrno errno) ↔ P v) :
    (∃ v ∈ visits', P v) ↔ ∃ v ∈ visits, P v := by
  have hnot := forall_touched (P := fun v => ¬ P v) h fun v hv hwait errno => not_congr (hP v hv hwait errno)
  have := not_congr hnot
  push Not at this
  exact this

/-! ## Opening -/

theorem visit_opens (action : IMtAction) (answer : CallAnswer) :
    ((mtMultiOpen.visit action answer).after.flag = .flagOpen ↔ action.flag = .flagOpen ∨ Opens (action, answer)) ∧
      (Sendable (mtMultiOpen.visit action answer).after ↔ Sendable action ∨ Opens (action, answer)) ∧
      ((mtMultiOpen.visit action answer).wait = true ↔ StaysClosed (action, answer)) := by
  unfold Phase.visit Opens StaysClosed
  dsimp only
  split
  next conn htries hconn =>
    have hnone := (tries_iff.mp htries).1
    have hflag : action.flag ≠ .flagOpen := (tries_iff.mp htries).2
    by_cases hret : conn.openCnnect answer < 0
    · have hneg : ¬ 0 ≤ conn.openCnnect answer := not_le.mpr hret
      simp [mtMultiOpen, hret, hneg, hconn, hflag, Sendable, Phase.tries, hnone]
    · have hpos : 0 ≤ conn.openCnnect answer := not_lt.mp hret
      simp [mtMultiOpen, hret, hpos, hconn, hflag, Sendable, Phase.tries, hnone]
  next hnot =>
    have hidle : ¬ (mtMultiOpen.tries action = true ∧ ∃ conn, conn ∈ action.conn) := by
      rintro ⟨htries, conn, hconn⟩
      exact hnot conn htries hconn
    have hopens : ∀ P : IMtConnection → Prop,
        ¬ (mtMultiOpen.tries action = true ∧ ∃ conn, conn ∈ action.conn ∧ P conn) :=
      fun P h => hidle ⟨h.1, h.2.imp fun _ hc => hc.1⟩
    refine ⟨(or_iff_left (hopens _)).symm, (or_iff_left (hopens _)).symm, iff_of_false ?_ (hopens _)⟩
    exact Bool.false_ne_true

/-- What is open or can be sent after a scan.
SOURCE: mt_concurrent.cpp:164-193 -/
theorem exists_scan_open (calls : List (IMtAction × CallAnswer)) :
    ((∃ v ∈ mtMultiOpen.scan calls, v.after.flag = .flagOpen) ↔
        (∃ x ∈ calls, x.1.flag = .flagOpen) ∨ ∃ x ∈ calls.takeWhile fun x => !mtMultiOpen.stops x.1, Opens x) ∧
      ((∃ v ∈ mtMultiOpen.scan calls, Sendable v.after) ↔
        (∃ x ∈ calls, Sendable x.1) ∨ ∃ x ∈ calls.takeWhile fun x => !mtMultiOpen.stops x.1, Opens x) := by
  induction calls with
  | nil => simp [Phase.scan]
  | cons x rest ih =>
    unfold Phase.scan
    by_cases hstops : mtMultiOpen.stops x.1
    · have hnot : ¬ Sendable x.1 := fun h => (tries_iff.mp (stops_iff.mp hstops).1).2 h.2
      rw [List.takeWhile_cons_of_neg (by simpa using hstops), if_pos hstops]
      simp only [List.exists_mem_cons_iff, List.mem_map, exists_exists_and_eq_and, List.not_mem_nil, false_and,
        exists_false, or_false]
      refine ⟨Iff.rfl, ?_⟩
      simp [Sendable, Visit.setErrno, Visit.skip] at hnot ⊢
      exact fun h1 h2 => absurd h2 (hnot h1)
    · obtain ⟨hflag, hsendable, -⟩ := visit_opens x.1 x.2
      rw [List.takeWhile_cons_of_pos (by simpa using hstops), if_neg hstops]
      simp only [List.exists_mem_cons_iff]
      rw [ih.1, ih.2, hflag, hsendable]
      constructor <;> exact or_or_or_comm

theorem open_wait_flag (hv : v ∈ mtMultiOpen.scan calls) (hwait : v.wait = true) : v.after.flag ≠ .flagOpen := by
  rcases mem_scan hv with ⟨x, -, rfl⟩ | ⟨x, -, rfl | rfl⟩
  · obtain ⟨hflag, -, hclosed⟩ := visit_opens x.1 x.2
    obtain ⟨htries, conn, hconn, hneg⟩ := hclosed.mp hwait
    rw [Ne, hflag]
    rintro (hopen | ⟨-, conn', hconn', hpos⟩)
    · exact (tries_iff.mp htries).2 hopen
    · cases Option.mem_unique hconn hconn'
      exact absurd hneg (not_lt.mpr hpos)
  · cases hwait
  · cases hwait

/-- What is open or can be sent after a pass.
SOURCE: mt_concurrent.cpp:164-223 -/
theorem exists_pass_open (end_ms : ℕ) (seen : Bool) (acts : List IMtAction) (round : Round) :
    ((∃ action ∈ (mtMultiOpen.pass end_ms seen acts round).visits.map (·.after), action.flag = .flagOpen) ↔
        (∃ action ∈ acts, action.flag = .flagOpen) ∨ ∃ x ∈ reached mtMultiOpen acts round, Opens x) ∧
      ((∃ action ∈ (mtMultiOpen.pass end_ms seen acts round).visits.map (·.after), Sendable action) ↔
        (∃ action ∈ acts, Sendable action) ∨ ∃ x ∈ reached mtMultiOpen acts round, Opens x) := by
  obtain ⟨hflag, hsendable⟩ := exists_scan_open (round.calls acts)
  have htouched := @touched_pass mtMultiOpen acts round end_ms seen
  simp only [List.mem_map, exists_exists_and_eq_and]
  constructor
  · rw [exists_touched (P := fun v => v.after.flag = .flagOpen) htouched fun v hv hwait errno => Iff.rfl, hflag,
      exists_call (P := fun action => action.flag = .flagOpen)]
    rfl
  · rw [exists_touched (P := fun v => Sendable v.after) htouched fun v hv hwait errno =>
      iff_of_false (fun h => open_wait_flag hv hwait h.2) (fun h => open_wait_flag hv hwait h.2), hsendable,
      exists_call (P := Sendable)]
    rfl

theorem any_sendable : (acts.any fun action => action.errno = .errNone && action.flag = mtMultiOpen.flag) ↔
    ∃ action ∈ acts, Sendable action := by
  rw [List.any_eq_true]
  refine exists_congr fun action => and_congr_right fun _ => ?_
  rw [Bool.and_eq_true, decide_eq_true_iff, decide_eq_true_iff]
  rfl

theorem any_wait (h : acts.any mtMultiOpen.stops = false) :
    (mtMultiOpen.scan (round.calls acts)).any (·.wait) ↔ ∃ x ∈ round.calls acts, StaysClosed x := by
  rw [List.any_eq_true]
  constructor
  · rintro ⟨v, hv, hwait⟩
    obtain ⟨x, hx, -, rfl⟩ := mem_scan_of_any h hv
    exact ⟨x, hx, (visit_opens x.1 x.2).2.2.mp hwait⟩
  · rintro ⟨x, hx, hclosed⟩
    rw [← reached_eq h] at hx
    exact ⟨_, visit_mem_scan hx, (visit_opens x.1 x.2).2.2.mpr hclosed⟩

/-- `has_open` says that an action can be sent. -/
def SeenOpen (b : Batch) : Prop := b.stage = .opening → b.seen = true → ∃ action ∈ b.acts, Sendable action

/-- Whether an action that can be sent was there before a pass. -/
theorem seen_iff (hb : SeenOpen b) (hstage : b.stage = .opening) :
    (b.seen || b.acts.any fun action => action.errno = .errNone && action.flag = mtMultiOpen.flag) = true ↔
      ∃ action ∈ b.acts, Sendable action := by
  rw [Bool.or_eq_true, any_sendable]
  exact or_iff_right_of_imp (hb hstage)

theorem goOn_sending (hstage : b.stage = .opening) (clock : ℕ) (rc : ℤ) :
    (b.goOn acts clock rc).stage = .sending ↔ 0 ≤ rc := by
  unfold Batch.goOn
  rw [hstage]
  dsimp only
  split
  next hneg => exact iff_of_false BatchStage.noConfusion (not_le.mpr hneg)
  next hpos => exact iff_of_true rfl (not_lt.mp hpos)

/-- What is expected when `mt_multi_open` returns: success if an action can be sent, or else an error, and
no action is open.
SOURCE: mt_concurrent.cpp:395-402 -/
theorem openPassRight_iff (hstage : b.stage = .opening) {clock : ℕ} {rc : ℤ} (hrc : rc ≤ 0) :
    OpenPassRight acts (b.goOn acts clock rc) rc ↔
      (rc = 0 ∧ ∃ action ∈ acts, Sendable action) ∨ rc ≠ 0 ∧ ∀ action ∈ acts, action.flag ≠ .flagOpen := by
  have hsending : (b.goOn acts clock rc).stage = .sending ↔ rc = 0 := by
    rw [goOn_sending hstage]
    omega
  have hopen : (∃ action ∈ acts, Sendable action) → ∃ action ∈ acts, action.flag = .flagOpen :=
    fun ⟨action, haction, h⟩ => ⟨action, haction, h.2⟩
  constructor
  · rintro ⟨hreturns, hgoes⟩
    rw [hsending] at hgoes
    by_cases hzero : rc = 0
    · exact .inl ⟨hzero, hgoes.mp hzero⟩
    · exact .inr ⟨hzero, fun action haction h => hzero (hreturns.mpr ⟨action, haction, h⟩)⟩
  · rintro (⟨hzero, hsendable⟩ | ⟨hne, hnone⟩)
    · exact ⟨iff_of_true hzero (hopen hsendable), iff_of_true (hsending.mpr hzero) hsendable⟩
    · have hclosed : ¬ ∃ action ∈ acts, action.flag = .flagOpen := fun ⟨action, haction, h⟩ => hnone action haction h
      exact ⟨iff_of_false hne hclosed, iff_of_false (hsending.not.mpr hne) fun h => hclosed (hopen h)⟩

/-- A pass of `mt_multi_open` does what is expected of it if and only if the condition holds.
SOURCE: mt_concurrent.cpp:150-224, 395-402 -/
theorem open_right_iff (hb : SeenOpen b) (hstage : b.stage = .opening) :
    PhaseRight b round ↔ OpenSafe b.end_ms b.acts round := by
  obtain ⟨hflag, hsendable⟩ := exists_pass_open b.end_ms b.seen b.acts round
  have hseen := seen_iff hb hstage
  have hpass : b.pass round = some (mtMultiOpen.pass b.end_ms b.seen b.acts round) := by
    simp [Batch.pass, Batch.phase, hstage]
  unfold PhaseRight OpenSafe Batch.step
  rw [hpass, hstage]
  unfold Phase.pass at hflag hsendable ⊢
  by_cases hstops : b.acts.any mtMultiOpen.stops
  · simp only [hstops, if_true] at hflag hsendable ⊢
    rw [openPassRight_iff hstage (by decide), or_iff_right fun h => absurd h.1 (by decide)]
    have hnone := not_congr hflag
    push Not at hnone
    rw [hnone]
    exact and_iff_right (by decide)
  · rw [Bool.not_eq_true] at hstops
    rw [reached_eq hstops] at hflag hsendable
    simp only [hstops, Bool.false_eq_true, if_false] at hflag hsendable ⊢
    by_cases hlate : b.end_ms < round.clock
    · simp only [gt_iff_lt, hlate, if_true] at hflag hsendable ⊢
      -- `has_open` is set only for an action that was open before this scan
      by_cases hbefore : ∃ action ∈ b.acts, Sendable action
      · rw [hseen.mpr hbefore, openPassRight_iff hstage (by decide)]
        refine iff_of_false ?_ fun h => ?_
        · rintro (⟨hzero, -⟩ | ⟨-, hnone⟩)
          · exact absurd hzero (by decide)
          · obtain ⟨action, haction, hsend⟩ := hsendable.mpr (.inl hbefore)
            exact hnone action haction hsend.2
        · obtain ⟨action, haction, hsend⟩ := hbefore
          exact h.1 action haction hsend
      · rw [Bool.eq_false_iff.mpr (hseen.not.mpr hbefore), openPassRight_iff hstage (by decide), hsendable,
          or_iff_left fun h => h.1 rfl, or_iff_right hbefore]
        exact (and_iff_right rfl).trans (and_iff_right fun action haction hsend =>
          hbefore ⟨action, haction, hsend⟩).symm
    · simp only [gt_iff_lt, hlate, if_false] at hflag hsendable ⊢
      have hwaiting := @any_wait b.acts round hstops
      by_cases hwait : (mtMultiOpen.scan (round.calls b.acts)).any (·.wait)
      · simp only [hwait, if_true, hwaiting.mp hwait, true_or]
      · rw [hwaiting] at hwait
        have hquiet : ((mtMultiOpen.scan (round.calls b.acts)).any (·.wait)) = false :=
          Bool.eq_false_iff.mpr (hwaiting.not.mpr hwait)
        simp only [hquiet, Bool.false_eq_true, if_false] at hsendable ⊢
        rw [openPassRight_iff hstage (by decide), hsendable, or_iff_right hwait,
          or_iff_left fun h => absurd rfl h.1, and_iff_right rfl]

/-- `has_open` keeps saying that an action can be sent. -/
theorem seenOpen_step (hb : SeenOpen b) (round : Round) : SeenOpen (b.step round) := by
  by_cases hstage : b.stage = .opening
  · have hsendable := (exists_pass_open b.end_ms b.seen b.acts round).2
    have hpass : b.pass round = some (mtMultiOpen.pass b.end_ms b.seen b.acts round) := by
      simp [Batch.pass, Batch.phase, hstage]
    have hseen : (mtMultiOpen.pass b.end_ms b.seen b.acts round).seen = true →
        ∃ action ∈ b.acts, Sendable action := by
      rw [← seen_iff hb hstage]
      unfold Phase.pass
      dsimp only
      split_ifs <;> exact id
    unfold Batch.step
    rw [hpass]
    rcases hend : mtMultiOpen.pass b.end_ms b.seen b.acts round with ⟨visits, seen, _ | rc⟩
    · rw [hend] at hsendable hseen
      exact fun _ h => hsendable.mpr (.inl (hseen h))
    · intro h
      dsimp only [Batch.goOn] at h
      rw [hstage] at h
      dsimp only at h
      split at h <;> cases h
  · intro h
    have hstay : (b.step round).stage ≠ .opening := by
      unfold Batch.step
      split
      · exact hstage
      · exact hstage
      · unfold Batch.goOn
        split
        next hopening => exact absurd hopening hstage
        · split <;> exact BatchStage.noConfusion
        · exact BatchStage.noConfusion
        next hended => exact hstage
    exact absurd h hstay

/-! ## Sending -/

/-- The result of `SendData` is dealt with as it has to be: it is an error that is seen as one, nothing was sent yet,
or the whole message was. -/
def SendCounted (conn : IMtConnection) (ret : ℤ) : Prop :=
  ret = -1 ∨ ret = 0 ∨ 0 < ret ∧ ∃ buf ∈ conn.msg_buff, ret = buf.msg_len

theorem sendDatagram_counted (hbuf : conn.msg_buff = some buf) (answer : CallAnswer) :
    SendCounted conn (conn.sendDatagram buf answer).2 ↔
      (if answer.ret = -1 then IMtConnection.again answer.errno
      else answer.ret = 0 ∨ 0 < answer.ret ∧ answer.ret = buf.msg_len) := by
  unfold SendCounted IMtConnection.sendDatagram
  split
  · split
    next hagain => simp [hagain]
    next hagain => simp [hagain]
  next hne => simp [hbuf, hne]

theorem sendStream_counted (hbuf : conn.msg_buff = some buf) (answer : CallAnswer) :
    SendCounted conn (conn.sendStream buf answer).2 ↔
      answer.ret = -1 ∨ buf.have_snd_len + answer.ret < buf.msg_len ∨ -1 ≤ buf.msg_len := by
  unfold SendCounted IMtConnection.sendStream
  split
  next hret => split <;> simp [hret]
  next hret =>
    dsimp only
    split
    next hall =>
      simp only [hbuf, Option.mem_def, Option.some.injEq, exists_eq_left', and_true]
      omega
    next hpart => simp [not_le.mp hpart]

/-- When the result of `SendData` is dealt with as it has to be.
SOURCE: mt_connection.cpp:115-143, 280-320, 636-664 -/
theorem sendData_counted (conn : IMtConnection) (answer : CallAnswer) :
    SendCounted conn (conn.sendData answer).2 ↔ SendSafe conn answer := by
  have hbad : ∀ conn, ¬ SendCounted conn (-100) := by
    rintro conn (h | h | h) <;> omega
  unfold IMtConnection.sendData SendSafe
  rcases htype : conn.type with _ | _ | _ | _ <;> rcases hbuf : conn.msg_buff with _ | buf <;> dsimp only
  · exact iff_of_true (.inr (.inl rfl)) trivial
  · exact iff_of_true (.inr (.inl rfl)) trivial
  · exact iff_of_false (hbad conn) id
  · split
    next hact => rw [sendDatagram_counted hbuf]; simp [hact]
    next hact => exact iff_of_false (hbad conn) fun h => hact h.1
  · exact iff_of_false (hbad conn) id
  · split
    next hact => rw [sendStream_counted hbuf]; simp [hact]
    next hact => exact iff_of_false (hbad conn) fun h => hact h.1
  · exact iff_of_false (hbad conn) id
  · split
    next hact =>
      rw [Bool.and_eq_true] at hact
      rw [sendDatagram_counted hbuf]
      simp [hact.1, hact.2]
    next hact =>
      exact iff_of_false (hbad conn) fun h => hact (Bool.and_eq_true_iff.mpr ⟨h.1, h.2.1 rfl⟩)

theorem skip_sendRight (action : IMtAction) : SendVisitRight (.skip action) :=
  ⟨fun hflag hne => absurd hflag hne, fun ret hret => by cases hret⟩

/-- What is expected of `mt_multi_sendto` for an action.
SOURCE: mt_concurrent.cpp:243-270 -/
theorem visit_sendRight_iff (action : IMtAction) (answer : CallAnswer) :
    SendVisitRight (mtMultiSendto.visit action answer) ↔
      (mtMultiSendto.tries action → ∀ conn ∈ action.conn, SendSafe conn answer) := by
  unfold Phase.visit
  split
  next conn htries hconn =>
    have hflag : action.flag ≠ .flagSend := (tries_iff.mp htries).2
    have hcall : mtMultiSendto.call conn answer = conn.sendData answer := rfl
    have hsafe : (mtMultiSendto.tries action → ∀ conn ∈ action.conn, SendSafe conn answer) ↔
        SendSafe conn answer := by
      refine ⟨fun h => h htries conn hconn, fun h _ other hother => ?_⟩
      cases Option.mem_unique hconn hother
      exact h
    rw [hsafe, ← sendData_counted, hcall]
    rcases conn.sendData answer with ⟨conn', ret⟩
    dsimp only
    have hverdict : mtMultiSendto.verdict ret =
      if ret = -1 then .fail .errSendFail else if ret = 0 then .wait else .mark := rfl
    rw [hverdict]
    by_cases hfail : ret = -1
    · simp only [hfail, if_true]
      exact iff_of_true ⟨fun h hne => absurd h hne, fun _ _ _ => rfl⟩ (.inl rfl)
    · by_cases hzero : ret = 0
      · simp only [hzero, if_true, if_neg (show ¬ (0 : ℤ) = -1 by decide)]
        refine iff_of_true ⟨fun h hne => absurd h hne, fun r hr hneg => ?_⟩ (.inr (.inl rfl))
        cases hr
        exact absurd hneg (lt_irrefl 0)
      · simp only [if_neg hfail, if_neg hzero]
        unfold SendCounted
        rw [or_iff_right hfail, or_iff_right hzero]
        constructor
        · intro hright
          -- an action that is marked keeps its error `ERR_NONE`
          have hpos : 0 ≤ ret := by
            by_contra hneg
            have herr : action.errno = .errSendFail := hright.failed ret rfl (not_le.mp hneg)
            rw [(tries_iff.mp htries).1] at herr
            cases herr
          obtain ⟨r, hr, c, hc, buf, hbuf, heq⟩ := hright.marked rfl hflag
          cases hr
          dsimp only at hc
          rw [hconn] at hc
          cases hc
          exact ⟨lt_of_le_of_ne hpos (Ne.symm hzero), buf, hbuf, heq⟩
        · rintro ⟨hpos, buf, hbuf, heq⟩
          refine ⟨fun _ _ => ⟨ret, rfl, conn, hconn, buf, hbuf, heq⟩, fun r hr hneg => ?_⟩
          cases hr
          exact absurd hneg (not_lt.mpr hpos.le)
  next hnot =>
    exact iff_of_true (skip_sendRight action) fun htries conn hconn => absurd hconn (hnot conn htries)

/-- An action waits for what its connection returned. -/
theorem visit_wait {answer : CallAnswer} (h : (p.visit action answer).wait = true) :
    ∃ conn ∈ action.conn, p.verdict (p.call conn answer).2 = .wait ∧
      (p.visit action answer).ret = some (p.call conn answer).2 := by
  unfold Phase.visit at h ⊢
  split
  next conn htries hconn =>
    refine ⟨conn, hconn, ?_⟩
    split at h
    next other _ hother =>
      cases Option.some.inj (hconn.symm.trans hother)
      revert h
      rcases p.call conn answer with ⟨conn', ret⟩
      intro h
      dsimp only at h ⊢
      cases hverdict : p.verdict ret <;> rw [hverdict] at h
      · cases h
      · exact ⟨rfl, rfl⟩
      · cases h
    next hnot => exact absurd hconn (hnot conn htries)
  next hnot =>
    split at h
    next conn htries hconn => exact absurd hconn (hnot conn htries)
    next => cases h

/-- The error of an action that waits is not looked at. -/
theorem sendRight_setErrno (hwait : ∀ ret ∈ v.ret, ¬ ret < 0) (errno : MultiError) :
    SendVisitRight (v.setErrno errno) ↔ SendVisitRight v :=
  ⟨fun h => ⟨h.marked, fun ret hret hneg => absurd hneg (hwait ret hret)⟩,
    fun h => ⟨h.marked, fun ret hret hneg => absurd hneg (hwait ret hret)⟩⟩

theorem send_wait (hv : v ∈ mtMultiSendto.scan calls) (hwait : v.wait = true) : ∀ ret ∈ v.ret, ¬ ret < 0 := by
  rcases mem_scan hv with ⟨x, -, rfl⟩ | ⟨x, -, rfl | rfl⟩
  · obtain ⟨conn, -, hverdict, hret⟩ := visit_wait hwait
    rw [hret]
    rintro ret ⟨⟩ hneg
    have hform : mtMultiSendto.verdict (mtMultiSendto.call conn x.2).2 =
      if (mtMultiSendto.call conn x.2).2 = -1 then .fail .errSendFail
      else if (mtMultiSendto.call conn x.2).2 = 0 then .wait else .mark := rfl
    rw [hform] at hverdict
    split at hverdict
    · cases hverdict
    · split at hverdict
      next hzero => omega
      · cases hverdict
  · cases hwait
  · cases hwait

/-- A pass of `mt_multi_sendto` does what is expected of it if and only if the condition holds.
SOURCE: mt_concurrent.cpp:226-307 -/
theorem send_right_iff (hstage : b.stage = .sending) : PhaseRight b round ↔ PhaseSafe b round := by
  have hpass : b.pass round = some (mtMultiSendto.pass b.end_ms b.seen b.acts round) := by
    simp [Batch.pass, Batch.phase, hstage]
  have htouched := @touched_pass mtMultiSendto b.acts round b.end_ms b.seen
  unfold PhaseRight PhaseSafe
  rw [hpass, hstage]
  dsimp only
  rw [forall_touched (P := SendVisitRight) htouched fun v hv hwait => sendRight_setErrno (send_wait hv hwait)]
  constructor
  · intro h x hx
    exact (visit_sendRight_iff x.1 x.2).mp (h _ (visit_mem_scan hx))
  · intro h v hv
    rcases mem_scan hv with ⟨x, hx, rfl⟩ | ⟨x, -, rfl | rfl⟩
    · exact (visit_sendRight_iff x.1 x.2).mpr (h x hx)
    · exact skip_sendRight x.1
    · exact (sendRight_setErrno (fun ret hret => by cases hret) _).mpr (skip_sendRight x.1)

/-! ## Receiving -/

/-- An action that was visited in the receive phase is through, has an error, or waits.
SOURCE: mt_concurrent.cpp:327-357 -/
theorem visit_recv (action : IMtAction) (answer : CallAnswer) :
    RecvVisitRight (mtMultiRecvfrom.visit action answer) ∧
      (mtMultiRecvfrom.stops action = false → (mtMultiRecvfrom.visit action answer).wait = false →
        (mtMultiRecvfrom.visit action answer).after.flag = .flagFin ∨
          (mtMultiRecvfrom.visit action answer).after.errno ≠ .errNone) := by
  unfold Phase.visit
  split
  next conn htries hconn =>
    rcases mtMultiRecvfrom.call conn answer with ⟨conn', ret⟩
    dsimp only
    have hverdict : mtMultiRecvfrom.verdict ret =
      if ret < 0 then .fail .errRecvFail else if ret = 0 then .wait else .mark := rfl
    rw [hverdict]
    by_cases hneg : ret < 0
    · simp only [hneg, if_true]
      exact ⟨fun h hne => absurd h hne, fun _ _ => .inr MultiError.noConfusion⟩
    · by_cases hzero : ret = 0
      · simp only [hzero, if_true, lt_irrefl, if_false]
        exact ⟨fun h hne => absurd h hne, fun _ h => absurd h Bool.noConfusion⟩
      · simp only [if_neg hneg, if_neg hzero]
        exact ⟨fun _ _ => ⟨ret, rfl, by omega⟩, fun _ _ => .inl rfl⟩
  next hnot =>
    refine ⟨fun h hne => absurd h hne, fun hstops _ => ?_⟩
    by_contra hopen
    rw [not_or, not_ne_iff] at hopen
    have htries : mtMultiRecvfrom.tries action := tries_iff.mpr ⟨hopen.2, hopen.1⟩
    cases hconn : action.conn with
    | none => exact Bool.false_ne_true (hstops.symm.trans (stops_iff.mpr ⟨htries, hconn⟩))
    | some conn => exact hnot conn htries hconn

/-- A pass of `mt_multi_recvfrom` does what is expected of it.
SOURCE: mt_concurrent.cpp:309-381 -/
theorem recv_phase_right (hstage : b.stage = .receiving) : PhaseRight b round := by
  have hpass : b.pass round = some (mtMultiRecvfrom.pass b.end_ms b.seen b.acts round) := by
    simp [Batch.pass, Batch.phase, hstage]
  have htouched := @touched_pass mtMultiRecvfrom b.acts round b.end_ms b.seen
  unfold PhaseRight
  rw [hpass, hstage]
  dsimp only
  constructor
  · rw [forall_touched (P := RecvVisitRight) htouched fun v hv hwait errno => Iff.rfl]
    intro v hv
    rcases mem_scan hv with ⟨x, -, rfl⟩ | ⟨x, -, rfl | rfl⟩
    · exact (visit_recv x.1 x.2).1
    · exact fun h hne => absurd h hne
    · exact fun h hne => absurd h hne
  · unfold Phase.pass
    dsimp only
    by_cases hstops : b.acts.any mtMultiRecvfrom.stops
    · rw [if_pos hstops]
      exact fun h => absurd h (by simp [mtMultiRecvfrom])
    · rw [if_neg hstops]
      split
      · rintro - v hv
        obtain ⟨w, hw, rfl⟩ := List.mem_map.mp hv
        split
        next hwait => exact .inr MultiError.noConfusion
        next hwait =>
          rw [Bool.not_eq_true] at hwait hstops
          obtain ⟨x, -, hx, rfl⟩ := mem_scan_of_any hstops hw
          exact (visit_recv x.1 x.2).2 hx hwait
      · split
        · exact fun h => absurd h (by simp)
        · exact fun h => absurd h (by simp)

/-! ## Runs -/

/-- The phases of a batch do what is expected of them in every pass of a run if and only if the condition holds in
every pass. -/
theorem batch_phases_right_iff (stage : BatchStage) (acts : List IMtAction) (timeout : ℤ) (clock : ℕ)
    (rounds : List Round) :
    AllSteps Batch.step PhaseRight (Batch.begin stage acts timeout clock) rounds ↔
      AllSteps Batch.step PhaseSafe (Batch.begin stage acts timeout clock) rounds := by
  refine allSteps_iff (I := SeenOpen) (D := fun _ => True) (fun b round hb _ _ => seenOpen_step hb round) ?_
    (fun _ h => absurd h Bool.false_ne_true) (fun _ _ => trivial)
  intro b round hb _
  cases hstage : b.stage with
  | opening =>
    rw [open_right_iff hb hstage]
    unfold PhaseSafe
    rw [hstage]
  | sending => exact send_right_iff hstage
  | receiving =>
    refine iff_of_true (recv_phase_right hstage) ?_
    unfold PhaseSafe
    rw [hstage]
    trivial
  | ended ret =>
    unfold PhaseRight PhaseSafe
    rw [hstage]

/-- One request over TCP, whose connection does not open within 10 milliseconds: `mt_multi_open` returns 0. -/
theorem late_open_succeeds :
    ¬ ∀ (acts : List IMtAction) (socks : List ℤ) (timeout : ℤ) (clock : ℕ) (rounds : List Round),
      AllSteps Batch.step PhaseRight (mtMultiSendrcvEx acts socks timeout clock) rounds := by
  intro h
  have hright := (h [⟨.errNone, .flagUndef, false, some ⟨.tcpKeep, true, true, some ⟨1, 0, 0⟩⟩⟩] [3] 10 0
    [⟨fun _ => ⟨-1, .einprogress, 0, none⟩, 11, .woken⟩]).1
  have hreturns : (0 : ℤ) = 0 ↔ ∃ action ∈ [(⟨.errConnectFail, .flagInit, false,
    some ⟨.tcpKeep, true, true, some ⟨1, 0, 0⟩⟩⟩ : IMtAction)], action.flag = .flagOpen := hright.returns
  exact absurd (hreturns.mp rfl) (by decide)

end FStack.Analysis
