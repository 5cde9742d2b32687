import FStack.Model.WaitDeadline

/-!
# Deadlines are valid and exact

Both functions carry a second when the nanoseconds are more than a second, so a sum of exactly a second is
passed as it is, and `sem_timedwait` refuses it.  For all other sums the deadline is the clock plus the timeout,
or it is refused because a `time_t` does not hold it (`absTimeout_exact_iff`).  A round of `RETRY` overwrites the
deadline, and only rounds that do not use it are repeated.
-/

set_option autoImplicit false

namespace FStack.Analysis

open FStack.Model

/-- A time in nanoseconds. -/
def Timespec.nanos (t : Timespec) : ℤ := t.tv_sec * NS_PER_SECOND + t.tv_nsec

/-- The deadline is `total` nanoseconds and normalised; there is none if a `time_t` does not hold its seconds, or
they are negative. -/
def DeadlineExact (total : ℤ) : Option Timespec → Prop
  | some d => Timespec.nanos d = total ∧ d.Normalised
  | none => total / NS_PER_SECOND < 0 ∨ 2 ^ 63 ≤ total / NS_PER_SECOND

/-- What a call waits on: nothing if there is no deadline, and otherwise the deadline. -/
def WaitsOn (d : Option Timespec) (waits : List SemWait) : Prop :=
  ∀ w ∈ waits, ∃ t ∈ d, w = .timed t

/-- What is to hold of a call of `epoll_wait` with a positive timeout, whatever its rounds meet. -/
def EpollDeadlineRight (clock : ClockReading) (timeout : EpollTimeout) : Prop :=
  DeadlineExact (Timespec.nanos clock.time + timeout.ms * 1000000) (epollDeadline clock.time timeout.ms) ∧
    ∀ maxevents junk rounds,
      WaitsOn (epollDeadline clock.time timeout.ms)
        (hookEpollWaits maxevents timeout.ms clock.time junk rounds)

/-- The same of `kevent`. -/
def KeventDeadlineRight (clock : ClockReading) (timeout : KeventTimeout) : Prop :=
  DeadlineExact (Timespec.nanos clock.time + Timespec.nanos timeout.time) (keventDeadline clock.time timeout.time)

/-- The nanoseconds do not add up to a second, or the seconds are no `time_t`. -/
def EpollDeadlineSafe (clock : ClockReading) (timeout : EpollTimeout) : Prop :=
  clock.time.tv_nsec + timeout.ms % 1000 * 1000000 = NS_PER_SECOND →
    2 ^ 63 ≤ clock.time.tv_sec + timeout.ms / 1000

/-- The same of `kevent`, where the seconds may be negative. -/
def KeventDeadlineSafe (clock : ClockReading) (timeout : KeventTimeout) : Prop :=
  clock.time.tv_nsec + timeout.time.tv_nsec = NS_PER_SECOND →
    clock.time.tv_sec + timeout.time.tv_sec < -1 ∨ 2 ^ 63 ≤ clock.time.tv_sec + timeout.time.tv_sec

/-! ## The carry -/

/-- INTERNAL: A sum of seconds that a `time_t` holds. -/
theorem timeT_of_lt {sec : ℤ} (hlow : -2 ^ 63 ≤ sec) (hhigh : sec < 2 ^ 63) : timeT sec = sec :=
  Int.bmod_eq_of_le (by omega) (by omega)

/-- INTERNAL: A sum of seconds that is too large becomes negative. -/
theorem timeT_of_ge {sec : ℤ} (hlow : 2 ^ 63 ≤ sec) (hhigh : sec < 2 ^ 64) : timeT sec = sec - 2 ^ 64 := by
  rw [timeT, ← Int.sub_bmod_right]
  exact Int.bmod_eq_of_le (by omega) (by omega)

/-- **The carry is right unless the nanoseconds are exactly a second.** -/
theorem absTimeout_exact_iff {sec nsec : ℤ} (hlow : -2 ^ 63 ≤ sec) (hhigh : sec < 2 ^ 64 - 1)
    (hpos : 0 ≤ nsec) (hlt : nsec < 2 * NS_PER_SECOND) :
    DeadlineExact (sec * NS_PER_SECOND + nsec) (absTimeout ⟨timeT sec, nsec⟩) ↔
      (nsec = NS_PER_SECOND → sec < -1 ∨ 2 ^ 63 ≤ sec) := by
  have hns : NS_PER_SECOND = 1000000000 := rfl
  rw [hns] at hlt ⊢
  rw [absTimeout, hns]
  dsimp only
  by_cases hcarry : 1000000000 < nsec
  · -- a second is carried
    rw [if_pos hcarry]
    refine iff_of_true ?_ fun heq => by omega
    by_cases hover : 2 ^ 63 - 1 ≤ sec
    · have hneg : timeT (timeT sec + 1) < 0 := by
        by_cases hlast : sec < 2 ^ 63
        · rw [timeT_of_lt hlow hlast, timeT_of_ge (by omega) (by omega)]
          omega
        · have hbig : timeT sec = sec - 2 ^ 64 := timeT_of_ge (by omega) (by omega)
          rw [hbig, timeT_of_lt (by omega) (by omega)]
          omega
      rw [if_pos (.inl hneg)]
      refine .inr ?_
      rw [hns]
      omega
    · rw [timeT_of_lt hlow (by omega), timeT_of_lt (by omega) (by omega)]
      dsimp only
      split
      · refine .inl ?_
        rw [hns]
        omega
      · refine ⟨?_, ?_⟩
        · rw [Timespec.nanos, hns]
          dsimp only
          omega
        · rw [Timespec.Normalised, hns]
          dsimp only
          omega
  · -- nothing is carried
    rw [if_neg hcarry]
    dsimp only
    by_cases hfits : sec < 2 ^ 63
    · rw [timeT_of_lt hlow hfits]
      split
      · rename_i hrefused
        have hneg : sec < 0 := by omega
        constructor
        · rintro (h | h) heq
          · rw [hns] at h
            omega
          · rw [hns] at h
            omega
        · intro h
          refine .inl ?_
          rw [hns]
          omega
      · constructor
        · rintro ⟨-, -, hnormal⟩ heq
          rw [hns] at hnormal
          dsimp only at hnormal
          omega
        · intro h
          refine ⟨?_, ?_⟩
          · rw [Timespec.nanos, hns]
          · rw [Timespec.Normalised, hns]
            dsimp only
            omega
    · have hbig : 2 ^ 63 ≤ sec := by omega
      rw [timeT_of_ge hbig (by omega), if_pos (by omega)]
      refine iff_of_true (.inr ?_) fun _ => .inr hbig
      rw [hns]
      omega

/-! ## The calls -/

/-- INTERNAL: With a positive timeout there is one round, and it waits on the deadline. -/
theorem hookEpollWaits_waitsOn (clock : ClockReading) (timeout : EpollTimeout) (maxevents : ℤ)
    (junk : Timespec) (rounds : List EpollRound) :
    WaitsOn (epollDeadline clock.time timeout.ms)
      (hookEpollWaits maxevents timeout.ms clock.time junk rounds) := by
  intro w hw
  rw [hookEpollWaits, if_pos timeout.pos] at hw
  cases hdeadline : epollDeadline clock.time timeout.ms with
  | none =>
    rw [hdeadline] at hw
    cases hw
  | some d =>
    rw [hdeadline] at hw
    refine ⟨d, rfl, ?_⟩
    cases rounds with
    | nil => cases hw
    | cons r rounds =>
      dsimp only at hw
      rw [epollWaits, if_pos timeout.pos] at hw
      rw [if_neg fun h => absurd timeout.pos (not_lt.mpr h.1)] at hw
      exact List.mem_singleton.mp hw

/-- INTERNAL: Without a positive timeout no round has a deadline, however often it is repeated. -/
theorem epollWaits_untimed (maxevents : ℤ) {timeout : ℤ} (htimeout : timeout ≤ 0) (abs_timeout : Timespec)
    (rounds : List EpollRound) :
    ∀ w ∈ epollWaits maxevents timeout abs_timeout rounds, w = .untimed := by
  induction rounds generalizing abs_timeout with
  | nil =>
    intro w hw
    cases hw
  | cons r rounds ih =>
    intro w hw
    rw [epollWaits] at hw
    rw [if_neg (not_lt.mpr htimeout)] at hw
    split at hw
    · rcases List.mem_cons.mp hw with rfl | hw
      · rfl
      · exact ih _ w hw
    · exact List.mem_singleton.mp hw

/-- **When the deadlines are right**: of `epoll_wait`, whose rounds without a positive timeout have none, and of
`kevent`. -/
theorem deadlines_right_iff (clock : ClockReading) :
    (∀ timeout : EpollTimeout, EpollDeadlineRight clock timeout ↔ EpollDeadlineSafe clock timeout) ∧
      (∀ timeout : KeventTimeout, KeventDeadlineRight clock timeout ↔ KeventDeadlineSafe clock timeout) ∧
        ∀ timeout ≤ 0, ∀ maxevents junk rounds,
          ∀ w ∈ hookEpollWaits maxevents timeout clock.time junk rounds, w = .untimed := by
  have hns : NS_PER_SECOND = 1000000000 := rfl
  have hsec := clock.sec
  obtain ⟨hpos, hlt⟩ := clock.nsec
  refine ⟨fun timeout => ?_, fun timeout => ?_, fun timeout htimeout maxevents junk rounds => ?_⟩
  · have hms := timeout.pos
    have hms' := timeout.lt
    have hdiv : timeout.ms.tdiv 1000 = timeout.ms / 1000 := Int.tdiv_eq_ediv_of_nonneg (by omega)
    have hmod : timeout.ms.tmod 1000 = timeout.ms % 1000 := Int.tmod_eq_emod_of_nonneg (by omega)
    have htotal : Timespec.nanos clock.time + timeout.ms * 1000000 =
        (clock.time.tv_sec + timeout.ms / 1000) * NS_PER_SECOND +
          (clock.time.tv_nsec + timeout.ms % 1000 * 1000 * 1000) := by
      rw [Timespec.nanos, hns]
      omega
    have hsum : timeout.ms % 1000 * 1000 * 1000 = timeout.ms % 1000 * 1000000 := by omega
    rw [EpollDeadlineRight, and_iff_left (hookEpollWaits_waitsOn clock timeout), htotal, epollDeadline, hdiv, hmod]
    rw [absTimeout_exact_iff (by omega) (by omega) (by omega) (by omega), EpollDeadlineSafe, hsum]
    constructor
    · intro h heq
      rcases h heq with h | h
      · omega
      · exact h
    · exact fun h heq => .inr (h heq)
  · have hsec' := timeout.sec
    obtain ⟨hpos', hlt'⟩ := timeout.nsec
    have htotal : Timespec.nanos clock.time + Timespec.nanos timeout.time =
        (clock.time.tv_sec + timeout.time.tv_sec) * NS_PER_SECOND +
          (clock.time.tv_nsec + timeout.time.tv_nsec) := by
      rw [Timespec.nanos, Timespec.nanos, hns]
      omega
    rw [KeventDeadlineRight, htotal, keventDeadline]
    rw [absTimeout_exact_iff (by omega) (by omega) (by omega) (by omega)]
    exact Iff.rfl
  · rw [hookEpollWaits, if_neg (not_lt.mpr htimeout)]
    exact epollWaits_untimed maxevents htimeout junk rounds

/-- At 999000000 nanoseconds, a timeout of one millisecond gives 1000000000 nanoseconds. -/
theorem not_deadlines_right :
    ¬∀ (clock : ClockReading) (timeout : EpollTimeout), EpollDeadlineRight clock timeout := by
  intro h
  have hright := h ⟨⟨7, 999000000⟩, by decide, by decide, by decide⟩ ⟨1, by decide, by decide⟩
  obtain ⟨⟨-, -, hnormal⟩, -⟩ := hright
  exact absurd hnormal (by decide)

end FStack.Analysis
