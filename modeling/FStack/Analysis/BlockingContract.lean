import FStack.Model.BlockingIo
import FStack.Prelude.Monitored

/-!
# What the blocking calls of micro threads agree on

A blocking call may report `ETIME` only if it has a limit, a timeout that is not negative, and the limit has passed since
the call began.  `write` and `send` hand over their buffer in order, and return its length when all of it was taken; the
other calls but `connect` return the first result of the non-blocking call that is not negative.

`recvfrom` and `recv` take a negative timeout for no limit, for as long as a wait of 2^31 - 1 milliseconds does not end.
The other calls compare the clock with it: `write` and `send` report `ETIME` at once, and the rest when the first attempt
fails.  `blocking_calls_right_iff` is the condition under which this does not happen.
-/

set_option autoImplicit false

namespace FStack.Analysis

open FStack.Model FStack.Prelude

variable {n errno failure : ℤ} {done : Option ℤ} {st' : IoState} {io : MtIo}

/-! ## The contract -/

/-- There is a limit, and it has passed at `clock`. -/
def LimitPassed (a : IoArgs) (start clock : ℕ) : Prop := 0 ≤ a.timeout ∧ a.timeout ≤ (clock : ℤ) - start

/-- `ETIME` is reported only when the limit has passed. -/
def EtimeRight (a : IoArgs) (start : ℕ) (st : IoState) : Prop :=
  ∀ n, st.ret = some (n, ETIME) → n < 0 → LimitPassed a start st.clock

/-- What was taken of the buffer is a first part of it, and its length is returned exactly when it is all of it. -/
def SendsRight (a : IoArgs) (st : IoState) : Prop :=
  st.accepted = a.data.take st.accepted.length ∧ ((∃ errno, st.ret = some ((a.data.length : ℤ), errno)) ↔ st.accepted = a.data)

/-- A result that is not negative is returned exactly when it is the first one. -/
def FirstRight (st : IoState) : Prop :=
  ∀ n, 0 ≤ n → ((∃ errno, st.ret = some (n, errno)) ↔ st.results.find? (0 ≤ ·) = some n)

/-- The contract of a call. -/
structure IoRight (io : MtIo) (a : IoArgs) (start : ℕ) (st : IoState) : Prop where
  etime : EtimeRight a start st
  sends : io.sendsAll → SendsRight a st
  first : ¬ io.sendsAll → io ≠ .connect → FirstRight st

/-! ## When it is kept -/

/-- A wait that begins at `clock` does not end without an event when there is no limit, and if the descriptor cannot be
added, `errno` is not `ETIME` before the limit. -/
def WaitSafe (a : IoArgs) (start clock : ℕ) : IoWait → Prop
  | .ready _ => True
  | .expired _ => 0 ≤ a.timeout
  | .refused errno => errno = ETIME → LimitPassed a start clock

/-- The non-blocking call does not fail with `ETIME` before the limit. -/
def AttemptSafe (a : IoArgs) (start clock : ℕ) (r : IoRound) : Prop :=
  r.result < 0 → r.errno = ETIME → LimitPassed a start clock

/-- A round of `recvfrom` and `recv`, if the time is not over. -/
def WaitThenTrySafe (a : IoArgs) (start : ℕ) (st : IoState) (r : IoRound) : Prop :=
  ¬ (st.tick r).overdue start (if a.timeout ≤ -1 then 0x7fffffff else a.timeout) →
    WaitSafe a start (st.tick r).clock r.wait ∧
      ∀ late, r.wait = .ready late → AttemptSafe a start ((st.tick r).clock + late) r

/-- A round of `sendto`, `connect`, `accept` and `read`, if the attempt fails: the clock is not compared with a limit
that is not there. -/
def TryThenWaitSafe (again : ℤ) (done : Option ℤ) (a : IoArgs) (start : ℕ) (st : IoState) (r : IoRound) : Prop :=
  r.result < 0 →
    ((st.tick r).overdue start a.timeout → 0 ≤ a.timeout) ∧
      (¬ (st.tick r).overdue start a.timeout → done ≠ some r.errno →
        AttemptSafe a start (st.tick r).clock r ∧ (r.errno = again → WaitSafe a start (st.tick r).clock r.wait))

/-- A round of `write` and `send`. -/
def SendAllSafe (a : IoArgs) (start : ℕ) (st : IoState) (r : IoRound) : Prop :=
  ((st.tick r).overdue start a.timeout → 0 ≤ a.timeout) ∧
    (¬ (st.tick r).overdue start a.timeout → AttemptSafe a start (st.tick r).clock r ∧
      ((r.result < 0 → r.errno = EAGAIN) → (0 ≤ r.result → st.send_len + r.result.toNat < a.data.length) →
        WaitSafe a start (st.tick r).clock r.wait))

/-- A round of each call. -/
def RoundSafe (io : MtIo) (a : IoArgs) : ℕ → IoState → IoRound → Prop :=
  match io with
  | .recvfrom | .recv => WaitThenTrySafe a
  | .sendto | .accept | .read => TryThenWaitSafe EAGAIN none a
  | .connect => TryThenWaitSafe EINPROGRESS (some EISCONN) a
  | .write | .send => SendAllSafe a

/-- A round of a call that has not returned is safe. -/
def IoSafe (io : MtIo) (a : IoArgs) (start : ℕ) (st : IoState) (r : IoRound) : Prop :=
  st.ret = none → RoundSafe io a start st r

/-! ## Clocks and waits -/

section

variable {a : IoArgs} {start : ℕ} {st : IoState} {r : IoRound}

/-- A difference that is cut to an `int` is not greater than the difference. -/
theorem bmod_le_self {d : ℤ} (h : 0 ≤ d) : d.bmod (2 ^ 32) ≤ d := by
  rw [Int.bmod_def]
  split <;> omega

theorem passed_of_overdue {timeout : ℤ} (hstart : start ≤ st.clock) (h : st.overdue start timeout = true) :
    timeout ≤ (st.clock : ℤ) - start := by
  have hlt := of_decide_eq_true h
  have hle := bmod_le_self (d := (st.clock : ℤ) - start) (by omega)
  omega

/-- No time is over when the limit is the greatest `int`. -/
theorem not_overdue_max : ¬ st.overdue start 0x7fffffff = true := by
  intro h
  have hlt := of_decide_eq_true h
  rw [Int.bmod_def] at hlt
  split at hlt <;> omega

theorem etimeRight_of_none (h : st.ret = none) : EtimeRight a start st := by
  intro n hret
  rw [h] at hret
  cases hret

theorem etimeRight_of_nonneg (hn : 0 ≤ n) : EtimeRight a start (st.return_ n errno) := by
  intro m hret hneg
  obtain ⟨rfl, -⟩ := Prod.mk.inj (Option.some.inj hret)
  omega

/-- A failure is right if it is not `ETIME`, or the limit has passed. -/
theorem etimeRight_return (hn : n < 0) :
    EtimeRight a start (st.return_ n errno) ↔ (errno = ETIME → LimitPassed a start st.clock) := by
  constructor
  · rintro h rfl
    exact h n rfl hn
  · intro h m hret _
    obtain ⟨-, herrno⟩ := Prod.mk.inj (Option.some.inj hret)
    exact h herrno

/-- A wait is right if it is safe. -/
theorem etimeRight_schedule (a : IoArgs) (st : IoState) (r : IoRound) (timeout : ℤ) (hret : st.ret = none)
    (hstart : start ≤ st.clock) (hfailure : failure < 0) (htimeout : 0 ≤ a.timeout → timeout = a.timeout) :
    EtimeRight a start (st.schedule timeout r failure) ↔ WaitSafe a start st.clock r.wait := by
  rw [IoState.schedule]
  cases hwait : r.wait with
  | ready late => exact iff_of_true (etimeRight_of_none hret) trivial
  | expired late =>
    constructor
    · intro h
      exact (h failure rfl hfailure).1
    · intro hlimit n _ _
      refine ⟨hlimit, ?_⟩
      have htime := htimeout hlimit
      dsimp only [ioSchedule]
      omega
  | refused errno =>
    change EtimeRight a start (st.return_ failure errno) ↔ _
    exact etimeRight_return hfailure

/-! ## Rounds -/

/-- What is done with a result after the wait is right if the attempt is safe. -/
theorem etimeRight_result (hret : st.ret = none) (hfailure : failure < 0) :
    EtimeRight a start (if r.result < 0 then
        if r.errno = EINTR then st.attempt r
        else if r.errno ≠ EAGAIN then (st.attempt r).return_ failure r.errno
        else st.attempt r
      else (st.attempt r).return_ r.result r.errno) ↔ AttemptSafe a start st.clock r := by
  by_cases hneg : r.result < 0
  · rw [if_pos hneg, AttemptSafe, imp_iff_right hneg]
    split
    · rename_i hintr
      refine iff_of_true (etimeRight_of_none hret) fun htime => ?_
      exact absurd (hintr.symm.trans htime) (by decide)
    · split
      · exact etimeRight_return hfailure
      · rename_i hagain
        refine iff_of_true (etimeRight_of_none hret) fun htime => ?_
        exact absurd ((not_not.mp hagain).symm.trans htime) (by decide)
  · rw [if_neg hneg]
    exact iff_of_true (etimeRight_of_nonneg (Int.not_lt.mp hneg)) fun h => absurd h hneg

theorem waitThenTry_right_iff (hret : st.ret = none) (hstart : start ≤ st.clock) :
    EtimeRight a start (waitThenTry a.timeout start st r) ↔ WaitThenTrySafe a start st r := by
  have hnow : start ≤ (st.tick r).clock := Nat.le_trans hstart (Nat.le_add_right _ _)
  rw [waitThenTry, WaitThenTrySafe]
  dsimp only
  by_cases hover : (st.tick r).overdue start (if a.timeout ≤ -1 then 0x7fffffff else a.timeout) = true
  · rw [if_pos hover]
    refine iff_of_true ?_ fun h => absurd hover h
    by_cases hneg : a.timeout ≤ -1
    · rw [if_pos hneg] at hover
      exact absurd hover not_overdue_max
    · rw [if_neg hneg] at hover
      exact (etimeRight_return (by decide)).mpr fun _ => ⟨by omega, passed_of_overdue hnow hover⟩
  · have hlimit : 0 ≤ a.timeout → (if a.timeout ≤ -1 then 0x7fffffff else a.timeout) = a.timeout := fun h =>
      if_neg (by omega)
    have hwait := etimeRight_schedule a (st.tick r) r _ hret hnow (by decide : (-2 : ℤ) < 0) hlimit
    rw [if_neg hover, imp_iff_right hover]
    cases hready : r.wait with
    | ready late =>
      have hsched : (st.tick r).schedule (if a.timeout ≤ -1 then 0x7fffffff else a.timeout) r (-2) =
          { st.tick r with clock := (st.tick r).clock + late } := by
        rw [IoState.schedule, hready]
        rfl
      have hgoing : (({ st.tick r with clock := (st.tick r).clock + late } : IoState).ret.isSome) = false :=
        Option.isSome_eq_false_iff.mpr (Option.isNone_iff_eq_none.mpr hret)
      rw [hsched, hgoing, if_neg Bool.false_ne_true, etimeRight_result (by exact hret) (by decide)]
      constructor
      · rintro h
        exact ⟨trivial, fun late' hlate => by rw [← IoWait.ready.inj hlate]; exact h⟩
      · intro h
        exact h.2 late rfl
    | expired late =>
      have hended : ((st.tick r).schedule (if a.timeout ≤ -1 then 0x7fffffff else a.timeout) r (-2)).ret.isSome = true := by
        rw [IoState.schedule, hready]
        rfl
      rw [if_pos hended, hwait, hready, and_iff_left]
      intro late' hlate
      cases hlate
    | refused errno =>
      have hended : ((st.tick r).schedule (if a.timeout ≤ -1 then 0x7fffffff else a.timeout) r (-2)).ret.isSome = true := by
        rw [IoState.schedule, hready]
        rfl
      rw [if_pos hended, hwait, hready, and_iff_left]
      intro late' hlate
      cases hlate

theorem tryThenWait_right_iff {again : ℤ} (hagain : again ≠ EINTR ∧ again ≠ ETIME) (hret : st.ret = none)
    (hstart : start ≤ st.clock) :
    EtimeRight a start (tryThenWait again done a.timeout start st r) ↔ TryThenWaitSafe again done a start st r := by
  have hnow : start ≤ (st.tick r).clock := Nat.le_trans hstart (Nat.le_add_right _ _)
  rw [tryThenWait, TryThenWaitSafe]
  dsimp only
  by_cases hneg : r.result < 0
  · rw [if_pos hneg, imp_iff_right hneg]
    have hsame : ((st.attempt r).tick r).overdue start a.timeout = (st.tick r).overdue start a.timeout := rfl
    rw [hsame]
    by_cases hover : (st.tick r).overdue start a.timeout = true
    · rw [if_pos hover, imp_iff_right hover, and_iff_left (fun h => absurd hover h)]
      refine (etimeRight_return (by decide)).trans ⟨fun h => (h rfl).1, fun hlimit _ => ⟨hlimit, ?_⟩⟩
      exact passed_of_overdue hnow hover
    · rw [if_neg hover, imp_iff_right hover, and_iff_right (fun h => absurd h hover)]
      by_cases hdone : done = some r.errno
      · rw [if_pos hdone]
        exact iff_of_true (etimeRight_of_nonneg (by decide)) fun h => absurd hdone h
      · rw [if_neg hdone, imp_iff_right hdone, AttemptSafe, imp_iff_right hneg]
        by_cases hintr : r.errno = EINTR
        · rw [if_pos hintr, hintr]
          refine iff_of_true (etimeRight_of_none hret) ⟨fun htime => ?_, fun hsame => ?_⟩
          · exact absurd htime (by decide)
          · exact absurd hsame.symm hagain.1
        · rw [if_neg hintr]
          by_cases hother : r.errno ≠ again
          · rw [if_pos hother, and_iff_left (fun h => absurd h hother)]
            exact etimeRight_return (by decide)
          · have hwait := etimeRight_schedule a ((st.attempt r).tick r) r a.timeout hret hnow
              (by decide : (-3 : ℤ) < 0) fun _ => rfl
            have hwould := not_not.mp hother
            rw [if_neg hother, hwait, hwould, imp_iff_right rfl, and_iff_right fun h => absurd h hagain.2]
            exact Iff.rfl
  · rw [if_neg hneg]
    exact iff_of_true (etimeRight_of_nonneg (Int.not_lt.mp hneg)) fun h => absurd h hneg

theorem sendAll_right_iff (hret : st.ret = none) (hstart : start ≤ st.clock) :
    EtimeRight a start (sendAllRound a.data a.timeout start st r) ↔ SendAllSafe a start st r := by
  have hnow : start ≤ (st.tick r).clock := Nat.le_trans hstart (Nat.le_add_right _ _)
  rw [sendAllRound, SendAllSafe]
  dsimp only
  by_cases hover : (st.tick r).overdue start a.timeout = true
  · rw [if_pos hover, imp_iff_right hover, and_iff_left (fun h => absurd hover h)]
    refine (etimeRight_return (by decide)).trans ⟨fun h => (h rfl).1, fun hlimit _ => ⟨hlimit, ?_⟩⟩
    exact passed_of_overdue hnow hover
  · rw [if_neg hover, imp_iff_right hover, and_iff_right (fun h => absurd h hover)]
    by_cases hneg : r.result < 0
    · have hno : 0 ≤ r.result → st.send_len + r.result.toNat < a.data.length := fun h => absurd h (Int.not_le.mpr hneg)
      rw [if_pos hneg, AttemptSafe, imp_iff_right hneg, imp_iff_right hneg, imp_iff_right hno]
      by_cases hintr : r.errno = EINTR
      · rw [if_pos hintr, hintr]
        refine iff_of_true (etimeRight_of_none hret) ⟨fun htime => ?_, fun hsame => ?_⟩
        · exact absurd htime (by decide)
        · exact absurd hsame (by decide)
      · rw [if_neg hintr]
        by_cases hother : r.errno ≠ EAGAIN
        · rw [if_pos hother, and_iff_left (fun h => absurd h hother)]
          exact etimeRight_return (by decide)
        · have hwait := etimeRight_schedule a ((st.tick r).attempt r) r a.timeout hret hnow
            (by decide : (-3 : ℤ) < 0) fun _ => rfl
          rw [if_neg hother, hwait, not_not.mp hother, imp_iff_right rfl, and_iff_right fun h => absurd h (by decide)]
          exact Iff.rfl
    · have hpos : 0 ≤ r.result := Int.not_lt.mp hneg
      rw [if_neg hneg, AttemptSafe, and_iff_right (fun h => absurd h hneg), imp_iff_right (fun h => absurd h hneg),
        imp_iff_right hpos]
      by_cases hall : st.send_len + r.result.toNat ≥ a.data.length
      · refine iff_of_true ?_ fun h => absurd hall (Nat.not_le.mpr h)
        rw [if_pos (by exact hall)]
        exact etimeRight_of_nonneg (Int.natCast_nonneg _)
      · rw [if_neg (by exact hall), imp_iff_right (Nat.lt_of_not_le hall)]
        exact etimeRight_schedule a { (st.tick r).attempt r with
          accepted := st.accepted ++ (a.data.drop st.send_len).take r.result.toNat
          send_len := st.send_len + r.result.toNat } r a.timeout hret hnow (by decide) fun _ => rfl

/-- A round of a call that has not returned reports `ETIME` only when it may, if and only if it is safe. -/
theorem round_right_iff (io : MtIo) (hret : st.ret = none) (hstart : start ≤ st.clock) :
    EtimeRight a start (io.round a start st r) ↔ RoundSafe io a start st r := by
  cases io with
  | recvfrom => exact waitThenTry_right_iff hret hstart
  | sendto => exact tryThenWait_right_iff (by decide) hret hstart
  | connect => exact tryThenWait_right_iff (by decide) hret hstart
  | accept => exact tryThenWait_right_iff (by decide) hret hstart
  | read => exact tryThenWait_right_iff (by decide) hret hstart
  | write => exact sendAll_right_iff hret hstart
  | recv => exact waitThenTry_right_iff hret hstart
  | send => exact sendAll_right_iff hret hstart

/-! ## What a round can do -/

/-- A round that does not succeed: one more attempt at most, which failed, and a failure if the call returns.  Only a
call with an error that means success (`done`) returns something else. -/
structure RoundFailed (done : Option ℤ) (st st' : IoState) (r : IoRound) : Prop where
  clock : st.clock ≤ st'.clock
  sent : st'.send_len = st.send_len ∧ st'.accepted = st.accepted
  results : st'.results = st.results ∨ st'.results = st.results ++ [r.result] ∧ r.result < 0
  ret : ∀ n errno, st'.ret = some (n, errno) → n < 0 ∨ done ≠ none

theorem schedule_failed (st : IoState) (timeout : ℤ) (hret : st.ret = none) (hfailure : failure < 0) (done : Option ℤ) :
    RoundFailed done st (st.schedule timeout r failure) r := by
  rw [IoState.schedule]
  cases r.wait with
  | ready late =>
    refine ⟨Nat.le_add_right _ _, ⟨rfl, rfl⟩, .inl rfl, fun n errno h => ?_⟩
    exact absurd (hret.symm.trans h) (Option.some_ne_none _).symm
  | expired late =>
    refine ⟨?_, ⟨rfl, rfl⟩, .inl rfl, fun n errno h => ?_⟩
    · dsimp only [ioSchedule]
      omega
    · exact .inl ((Prod.mk.inj (Option.some.inj h)).1 ▸ hfailure)
  | refused e =>
    refine ⟨Nat.le_refl _, ⟨rfl, rfl⟩, .inl rfl, fun n errno h => ?_⟩
    exact .inl ((Prod.mk.inj (Option.some.inj h)).1 ▸ hfailure)

theorem RoundFailed.after_tick (h : RoundFailed done (st.tick r) st' r) :
    RoundFailed done st st' r :=
  ⟨Nat.le_trans (Nat.le_add_right _ _) h.clock, h.sent, h.results, h.ret⟩

/-- An attempt that failed, after which nothing more is tried. -/
theorem RoundFailed.after_attempt (h : RoundFailed done (st.attempt r) st' r) (hneg : r.result < 0)
    (hresults : st'.results = (st.attempt r).results) : RoundFailed done st st' r :=
  ⟨h.clock, h.sent, .inr ⟨hresults, hneg⟩, h.ret⟩

theorem failed_self (st : IoState) (hret : st.ret = none) (done : Option ℤ) : RoundFailed done st st r :=
  ⟨Nat.le_refl _, ⟨rfl, rfl⟩, .inl rfl, fun _ _ h => absurd (hret.symm.trans h) (Option.some_ne_none _).symm⟩

theorem failed_return (hn : n < 0 ∨ done ≠ none) :
    RoundFailed done st (st.return_ n errno) r :=
  ⟨Nat.le_refl _, ⟨rfl, rfl⟩, .inl rfl, fun _ _ h => (Prod.mk.inj (Option.some.inj h)).1 ▸ hn⟩

theorem schedule_results {timeout : ℤ} : (st.schedule timeout r failure).results = st.results := by
  rw [IoState.schedule]
  split <;> rfl

/-- A round that succeeds: one more attempt, whose result is returned. -/
structure RoundReturned (st st' : IoState) (r : IoRound) : Prop where
  nonneg : 0 ≤ r.result
  clock : st.clock ≤ st'.clock
  results : st'.results = st.results ++ [r.result]
  ret : st'.ret = some (r.result, r.errno)

theorem waitThenTry_cases (hret : st.ret = none) (timeout : ℤ) :
    RoundFailed none st (waitThenTry timeout start st r) r ∨ RoundReturned st (waitThenTry timeout start st r) r := by
  rw [waitThenTry]
  dsimp only
  generalize (if timeout ≤ -1 then 0x7fffffff else timeout) = limit
  by_cases hover : (st.tick r).overdue start limit = true
  · rw [if_pos hover]
    exact .inl (failed_return (.inl (by decide))).after_tick
  · rw [if_neg hover]
    have hsched : RoundFailed none (st.tick r) ((st.tick r).schedule limit r (-2)) r :=
      schedule_failed (st.tick r) limit hret (by decide) none
    by_cases hended : ((st.tick r).schedule limit r (-2)).ret.isSome = true
    · rw [if_pos hended]
      exact .inl hsched.after_tick
    · rw [if_neg hended]
      have hgoing : ((st.tick r).schedule limit r (-2)).ret = none := Option.not_isSome_iff_eq_none.mp hended
      have hclock : st.clock ≤ ((st.tick r).schedule limit r (-2)).clock :=
        Nat.le_trans (Nat.le_add_right _ _) hsched.clock
      have hresults : ((st.tick r).schedule limit r (-2)).results = st.results := schedule_results
      have hsent := hsched.sent
      generalize (st.tick r).schedule limit r (-2) = waited at hgoing hclock hresults hsent
      -- whatever is done with a failed attempt, it is the only one of the round
      have hfail : ∀ {st' : IoState}, RoundFailed none (waited.attempt r) st' r → r.result < 0 →
          st'.results = (waited.attempt r).results → RoundFailed none st st' r := by
        intro st' h hneg hsame
        refine ⟨Nat.le_trans hclock h.clock, ⟨h.sent.1.trans hsent.1, h.sent.2.trans hsent.2⟩, .inr ⟨?_, hneg⟩, h.ret⟩
        rw [hsame, IoState.attempt, hresults]
      by_cases hneg : r.result < 0
      · rw [if_pos hneg]
        split
        · exact .inl (hfail (failed_self (waited.attempt r) hgoing none) hneg rfl)
        · split
          · exact .inl (hfail (failed_return (.inl (by decide))) hneg rfl)
          · exact .inl (hfail (failed_self (waited.attempt r) hgoing none) hneg rfl)
      · rw [if_neg hneg]
        exact .inr ⟨Int.not_lt.mp hneg, hclock, congrArg (· ++ [r.result]) hresults, rfl⟩

theorem tryThenWait_cases (hret : st.ret = none) (again : ℤ) (done : Option ℤ) (timeout : ℤ) :
    RoundFailed done st (tryThenWait again done timeout start st r) r ∨
      RoundReturned st (tryThenWait again done timeout start st r) r := by
  rw [tryThenWait]
  dsimp only
  by_cases hneg : r.result < 0
  · rw [if_pos hneg]
    left
    -- the clock is read after the attempt
    have hfail : ∀ {st' : IoState}, RoundFailed done ((st.attempt r).tick r) st' r →
        st'.results = ((st.attempt r).tick r).results → RoundFailed done st st' r := fun h hsame =>
      h.after_tick.after_attempt hneg hsame
    split
    · exact hfail (failed_return (.inl (by decide))) rfl
    · split
      · rename_i hdone
        exact hfail (failed_return (.inr (hdone ▸ Option.some_ne_none _))) rfl
      · split
        · exact hfail (failed_self ((st.attempt r).tick r) hret done) rfl
        · split
          · exact hfail (failed_return (.inl (by decide))) rfl
          · exact hfail (schedule_failed ((st.attempt r).tick r) _ hret (by decide) done) schedule_results
  · rw [if_neg hneg]
    exact .inr ⟨Int.not_lt.mp hneg, Nat.le_refl _, rfl, rfl⟩

/-- What `write` and `send` keep: the bytes up to `send_len` were taken, and the length of the buffer is returned when
that is all of it. -/
structure SendsKept (a : IoArgs) (st : IoState) : Prop where
  accepted : st.accepted = a.data.take st.send_len
  going : st.ret = none → st.send_len < a.data.length
  ret : ∀ n errno, st.ret = some (n, errno) → (n = a.data.length ↔ a.data.length ≤ st.send_len)

theorem SendsKept.of_failed (h : SendsKept a st) (hret : st.ret = none) (hfailed : RoundFailed none st st' r) :
    SendsKept a st' := by
  obtain ⟨hlen, htaken⟩ := hfailed.sent
  have hgoing := h.going hret
  refine ⟨by rw [htaken, hlen, h.accepted], fun _ => hlen ▸ hgoing, fun n errno hsome => ?_⟩
  have hneg := (hfailed.ret n errno hsome).resolve_right fun hdone => hdone rfl
  omega

theorem SendsKept.round (h : SendsKept a st) (hret : st.ret = none) :
    SendsKept a (sendAllRound a.data a.timeout start st r) ∧
      st.clock ≤ (sendAllRound a.data a.timeout start st r).clock := by
  have hfailed : ∀ {st' : IoState}, RoundFailed none st st' r → SendsKept a st' ∧ st.clock ≤ st'.clock := fun hround =>
    ⟨h.of_failed hret hround, hround.clock⟩
  rw [sendAllRound]
  dsimp only
  by_cases hover : (st.tick r).overdue start a.timeout = true
  · rw [if_pos hover]
    exact hfailed (failed_return (.inl (by decide))).after_tick
  · rw [if_neg hover]
    by_cases hneg : r.result < 0
    · rw [if_pos hneg]
      have hattempt : ∀ {st' : IoState}, RoundFailed none ((st.tick r).attempt r) st' r →
          st'.results = ((st.tick r).attempt r).results → SendsKept a st' ∧ st.clock ≤ st'.clock := fun hround hsame =>
        hfailed (hround.after_attempt hneg hsame).after_tick
      split
      · exact hattempt (failed_self ((st.tick r).attempt r) hret none) rfl
      · split
        · exact hattempt (failed_return (.inl (by decide))) rfl
        · exact hattempt (schedule_failed ((st.tick r).attempt r) _ hret (by decide) none) schedule_results
    · rw [if_neg hneg]
      -- the bytes from `send_len` on follow those that were taken
      have htaken : st.accepted ++ (a.data.drop st.send_len).take r.result.toNat =
          a.data.take (st.send_len + r.result.toNat) := by
        rw [h.accepted, List.take_add]
      by_cases hall : st.send_len + r.result.toNat ≥ a.data.length
      · rw [if_pos (by exact hall)]
        refine ⟨⟨htaken, fun hnone => absurd hnone (Option.some_ne_none _), fun n errno hsome => ?_⟩,
          Nat.le_add_right _ _⟩
        exact iff_of_true (Prod.mk.inj (Option.some.inj hsome)).1.symm hall
      · rw [if_neg (by exact hall)]
        have hsent : SendsKept a { (st.tick r).attempt r with
            accepted := st.accepted ++ (a.data.drop st.send_len).take r.result.toNat
            send_len := st.send_len + r.result.toNat } :=
          ⟨htaken, fun _ => Nat.lt_of_not_le hall, fun n errno hsome =>
            absurd (hret.symm.trans hsome) (Option.some_ne_none _).symm⟩
        have hsched := schedule_failed (r := r) { (st.tick r).attempt r with
          accepted := st.accepted ++ (a.data.drop st.send_len).take r.result.toNat
          send_len := st.send_len + r.result.toNat } a.timeout hret (by decide : (-3 : ℤ) < 0) none
        exact ⟨hsent.of_failed hret hsched, Nat.le_trans (Nat.le_add_right _ _) hsched.clock⟩

/-- What the calls with one success keep: no result but the last one was not negative, and that one is returned. -/
structure FirstKept (st : IoState) : Prop where
  going : st.ret = none → ∀ n ∈ st.results, n < 0
  ret : ∀ n errno, st.ret = some (n, errno) →
    n < 0 ∧ (∀ m ∈ st.results, m < 0) ∨ 0 ≤ n ∧ st.results.find? (0 ≤ ·) = some n

theorem FirstKept.of_failed (h : FirstKept st) (hret : st.ret = none) (hfailed : RoundFailed none st st' r) :
    FirstKept st' := by
  have hneg : ∀ n ∈ st'.results, n < 0 := by
    rcases hfailed.results with hsame | ⟨hmore, hlast⟩
    · rw [hsame]
      exact h.going hret
    · rw [hmore]
      intro n hn
      rcases List.mem_append.mp hn with hn | hn
      · exact h.going hret n hn
      · rwa [List.mem_singleton.mp hn]
  exact ⟨fun _ => hneg, fun n errno hsome =>
    .inl ⟨(hfailed.ret n errno hsome).resolve_right fun hdone => hdone rfl, hneg⟩⟩

theorem FirstKept.of_returned (h : FirstKept st) (hret : st.ret = none) (hreturned : RoundReturned st st' r) :
    FirstKept st' := by
  refine ⟨fun hnone => absurd (hreturned.ret.symm.trans hnone) (Option.some_ne_none _), fun n errno hsome => .inr ?_⟩
  obtain ⟨rfl, -⟩ := Prod.mk.inj (Option.some.inj (hreturned.ret.symm.trans hsome))
  have hbefore : st.results.find? (0 ≤ ·) = none := by
    rw [List.find?_eq_none]
    intro n hn
    have hneg := h.going hret n hn
    simpa using hneg
  refine ⟨hreturned.nonneg, ?_⟩
  rw [hreturned.results, List.find?_append, hbefore, Option.none_or, List.find?_cons_of_pos]
  exact decide_eq_true hreturned.nonneg

/-! ## Runs -/

/-- What a call keeps while it goes on, and what is left when it has returned. -/
structure IoKept (io : MtIo) (a : IoArgs) (start : ℕ) (st : IoState) : Prop where
  clock : start ≤ st.clock
  sends : io.sendsAll → SendsKept a st
  first : ¬ io.sendsAll → io ≠ .connect → FirstKept st

theorem IoKept.of_cases (h : IoKept io a start st) (hret : st.ret = none) (hone : ¬ io.sendsAll)
    (hcases : RoundFailed none st st' r ∨ RoundReturned st st' r) : IoKept io a start st' := by
  rcases hcases with hfailed | hreturned
  · exact ⟨Nat.le_trans h.clock hfailed.clock, fun hall => absurd hall hone, fun _ hconnect =>
      (h.first hone hconnect).of_failed hret hfailed⟩
  · exact ⟨Nat.le_trans h.clock hreturned.clock, fun hall => absurd hall hone, fun _ hconnect =>
      (h.first hone hconnect).of_returned hret hreturned⟩

theorem IoKept.of_sends (h : IoKept io a start st) (hret : st.ret = none) (hall : io.sendsAll) :
    IoKept io a start (sendAllRound a.data a.timeout start st r) := by
  obtain ⟨hsends, hclock⟩ := (h.sends hall).round (r := r) hret
  exact ⟨Nat.le_trans h.clock hclock, fun _ => hsends, fun hone => absurd hall hone⟩

theorem IoKept.round (h : IoKept io a start st) (hret : st.ret = none) (r : IoRound) :
    IoKept io a start (io.round a start st r) := by
  cases io with
  | recvfrom => exact h.of_cases hret (by decide) (waitThenTry_cases hret _)
  | sendto => exact h.of_cases hret (by decide) (tryThenWait_cases hret _ none _)
  | connect =>
    have hclock : st.clock ≤ (MtIo.connect.round a start st r).clock :=
      (tryThenWait_cases hret EINPROGRESS (some EISCONN) a.timeout).elim RoundFailed.clock RoundReturned.clock
    exact ⟨Nat.le_trans h.clock hclock, fun hall => absurd hall (by decide), fun _ hconnect => absurd rfl hconnect⟩
  | accept => exact h.of_cases hret (by decide) (tryThenWait_cases hret _ none _)
  | read => exact h.of_cases hret (by decide) (tryThenWait_cases hret _ none _)
  | write => exact h.of_sends hret rfl
  | recv => exact h.of_cases hret (by decide) (waitThenTry_cases hret _)
  | send => exact h.of_sends hret rfl

theorem IoKept.step (h : IoKept io a start st) (r : IoRound) : IoKept io a start (io.step a start st r) := by
  rw [MtIo.step]
  by_cases hended : st.ret.isSome = true
  · rwa [if_pos hended]
  · rw [if_neg hended]
    exact h.round (Option.not_isSome_iff_eq_none.mp hended) r

theorem begin_kept (hdata : io.sendsAll → a.data ≠ []) (start : ℕ) :
    IoKept io a start (io.begin_ a start) := by
  have hrefused : ∀ n errno, (io.begin_ a start).ret = some (n, errno) → n = -10 := by
    intro n errno hsome
    rw [MtIo.begin_] at hsome
    dsimp only at hsome
    split at hsome
    · exact (Prod.mk.inj (Option.some.inj hsome)).1.symm
    · cases hsome
  refine ⟨Nat.le_refl start, fun hall => ⟨rfl, fun _ => List.length_pos_iff.mpr (hdata hall), fun n errno hsome => ?_⟩,
    fun _ _ => ⟨fun _ n hn => absurd hn List.not_mem_nil, fun n errno hsome => .inl ?_⟩⟩
  · have hn := hrefused n errno hsome
    have hpos := List.length_pos_iff.mpr (hdata hall)
    have hnone : (io.begin_ a start).send_len = 0 := rfl
    omega
  · exact ⟨by rw [hrefused n errno hsome]; decide, fun m hm => absurd hm List.not_mem_nil⟩

theorem SendsKept.right (h : SendsKept a st) : SendsRight a st := by
  have hlength : st.accepted.length = min st.send_len a.data.length := by rw [h.accepted, List.length_take]
  refine ⟨?_, ?_⟩
  · rw [hlength, ← List.take_eq_take_min]
    exact h.accepted
  · constructor
    · rintro ⟨errno, hsome⟩
      rw [h.accepted, List.take_of_length_le ((h.ret _ errno hsome).mp rfl)]
    · intro hall
      have hle : a.data.length ≤ st.send_len := by
        rw [hall] at hlength
        omega
      cases hret : st.ret with
      | none => exact absurd (h.going hret) (Nat.not_lt.mpr hle)
      | some returned =>
        have hlen := (h.ret returned.1 returned.2 hret).mpr hle
        exact ⟨returned.2, by rw [← hlen]⟩

theorem FirstKept.right (h : FirstKept st) : FirstRight st := by
  intro n hn
  constructor
  · rintro ⟨errno, hsome⟩
    rcases h.ret n errno hsome with ⟨hneg, -⟩ | ⟨-, hfirst⟩
    · omega
    · exact hfirst
  · intro hfirst
    have hmem := List.mem_of_find?_eq_some hfirst
    cases hret : st.ret with
    | none => exact absurd (h.going hret n hmem) (Int.not_lt.mpr hn)
    | some returned =>
      rcases h.ret returned.1 returned.2 hret with ⟨-, hall⟩ | ⟨-, hreturned⟩
      · exact absurd (hall n hmem) (Int.not_lt.mpr hn)
      · exact ⟨returned.2, by rw [Option.some.inj (hfirst.symm.trans hreturned)]⟩

end

/-- A call keeps the contract if and only if its rounds are safe, and `write` and `send` have something to send. -/
theorem blocking_calls_right_iff (io : MtIo) (a : IoArgs) (start : ℕ) (rounds : List IoRound) :
    IoRight io a start (io.run a start rounds) ↔
      (io.sendsAll → a.data ≠ []) ∧ AllSteps (io.step a start) (IoSafe io a start) (io.begin_ a start) rounds := by
  by_cases hdata : io.sendsAll → a.data ≠ []
  · have hbegin := begin_kept hdata start
    have hkept : IoKept io a start (io.run a start rounds) :=
      List.foldlRecOn rounds (io.step a start) hbegin fun st h r _ => h.step r
    have hetime : EtimeRight a start (io.run a start rounds) ↔
        AllSteps (io.step a start) (IoSafe io a start) (io.begin_ a start) rounds := by
      refine foldl_right_iff (I := IoKept io a start) (E := fun st => st.ret.isSome = true) ?_ ?_ ?_ ?_ hbegin ?_ rounds
      · intro st r hended
        exact ⟨if_pos hended, fun hnone => absurd hnone (Option.isSome_iff_ne_none.mp hended)⟩
      · intro st hgoing
        exact etimeRight_of_none (Option.not_isSome_iff_eq_none.mp hgoing)
      · intro st r h _
        exact h.step r
      · intro st r h hgoing
        have hret := Option.not_isSome_iff_eq_none.mp hgoing
        rw [MtIo.step, if_neg hgoing, IoSafe, imp_iff_right hret]
        exact round_right_iff io hret h.clock
      · intro n hsome _
        rw [MtIo.begin_] at hsome
        dsimp only at hsome
        split at hsome
        · exact absurd (Prod.mk.inj (Option.some.inj hsome)).2 (by decide)
        · cases hsome
    rw [and_iff_right hdata, ← hetime]
    exact ⟨IoRight.etime, fun h => ⟨h, fun hall => (hkept.sends hall).right, fun hone hconnect =>
      (hkept.first hone hconnect).right⟩⟩
  · refine iff_of_false (fun h => ?_) fun h => hdata h.1
    push Not at hdata
    obtain ⟨hall, hnil⟩ := hdata
    -- an empty buffer is refused
    have hrefuses : io.refuses a = true := by
      cases io with
      | write => simp [MtIo.refuses, hnil]
      | send => simp [MtIo.refuses, hnil]
      | _ => cases hall
    have hrefused : io.begin_ a start = ⟨start, 0, [], [], some (-10, EINVAL)⟩ := by
      rw [MtIo.begin_, if_pos hrefuses]
    have hrun : io.run a start rounds = io.begin_ a start :=
      List.foldlRecOn (motive := fun st => st = io.begin_ a start) rounds (io.step a start) rfl fun st hst r _ => by
        rw [hst, MtIo.step, hrefused]
        rfl
    obtain ⟨errno, hret⟩ := (h.sends hall).2.mpr (by rw [hrun, hrefused, hnil])
    rw [hrun, hrefused, hnil] at hret
    exact absurd (Prod.mk.inj (Option.some.inj hret)).1 (by decide)

/-- `write` of one byte with a timeout of -1 reports `ETIME` at once. -/
theorem write_without_limit : ¬ ∀ (io : MtIo) (a : IoArgs) (start : ℕ) (rounds : List IoRound),
    (io.sendsAll → a.data ≠ []) → IoRight io a start (io.run a start rounds) := by
  intro h
  have hright := h .write ⟨3, true, 1, [7], -1, by decide, by decide⟩ 1000 [⟨0, 1, 0, .ready 0⟩] (by decide)
  have hlimit := hright.etime (-1) rfl (by decide)
  exact absurd hlimit.1 (by decide)

end FStack.Analysis
