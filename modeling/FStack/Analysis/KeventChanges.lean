import FStack.Analysis.HostPairs

/-!
# Which changes reach the F-Stack kqueue

A call of `ff_kevent` with a kernel side has to pass on every change of the changelist that is not one of
a kernel descriptor alone, and to return the events of both kernels one behind the other.

It polls the host epoll first, and returns at once if the host's events fill the event list: the changes
are lost then.  The count is that of the events unless the kqueue accepts a change with `EV_RECEIPT` when
the list is full: `kqueue_kevent` then returns without an error and without a count, and the caller gets
what an earlier call left in `td_retval[0]`.
-/

set_option autoImplicit false

namespace FStack.Analysis

open FStack.Prelude FStack.Model

variable {room error : ℕ} {arg : Cursor RawKevent}

/-- The changes that the F-Stack kqueue has to be given. -/
def toSubmit (changelist : List (RawKevent × HostEnv)) : List RawKevent :=
  (changelist.map Prod.fst).filter fun kev => !ffIsKernelFd (fdOf kev.ident)

/-- What a call has to do: every change is submitted, once and in order; the value returned, unless it
is an error, counts the events and is at most the room that there is; the event list has the host's
events first, and those of the F-Stack kqueue right behind them. -/
structure KeventApplies {K : Type} (c : KeventCall) (r : KeventResult K) : Prop where
  submitted : r.submitted = toSubmit c.changelist
  count_le : 0 ≤ r.ret → r.ret ≤ max c.nevents 0
  count_eq : 0 ≤ r.ret → r.ret = (r.host ++ r.fstack).length
  events : ∀ i < (r.host ++ r.fstack).length, (r.host ++ r.fstack)[i]? = some (r.eventlist i)

/-! ## The condition -/

/-- The host's events that a call stores.  Without an event list, or without a host epoll, there are
none. -/
noncomputable def hostCount (st : CoexistState) (c : KeventCall) : ℕ :=
  open Classical in
  if c.eventlist.isSome ∧ 0 < c.nevents ∧ HasHostEp st.fds c.kq c.changelist then
    min c.nevents.toNat (c.ready.getD []).length
  else 0

/-- The room that the event list has for the F-Stack kqueue. -/
noncomputable def roomLeft (st : CoexistState) (c : KeventCall) : ℤ :=
  if c.eventlist.isSome then c.nevents - hostCount st c else 0

section Kqueue

variable {K N : Type} (q : KqueueOps K N)

/-- The error numbers that the kqueue has to report for changes: those of changes that fail, and 0 for
one that asks for a receipt. -/
def reportErrors : K → List RawKevent → List ℕ
  | _, [] => []
  | kq, kev :: rest =>
    if kev.filter = 0 then reportErrors kq rest
    else
      let kev := kev.withoutSys
      let r := q.register kq kev
      if r.2 ≠ 0 ∨ kev.flags.EV_RECEIPT then r.2 :: reportErrors r.1 rest
      else reportErrors r.1 rest

/-- When a call does what it has to do: no change is to be submitted while the host's events fill the
list; a list of negative length is not used for reports; and the kqueue does not accept a change with
`EV_RECEIPT` once the list is full, unless what `td_retval[0]` holds does no harm. -/
structure CallFits (st : CoexistState) (kq : K) (td_retval : ℤ) (c : KeventCall) : Prop where
  room : toSubmit c.changelist ≠ [] → c.eventlist.isSome → 0 < c.nevents → 0 < roomLeft st c
  nonneg : c.eventlist.isSome → c.nevents < 0 → reportErrors q kq (toSubmit c.changelist) = []
  receipt : 0 ≤ roomLeft st c →
    (reportErrors q kq (toSubmit c.changelist))[(roomLeft st c).toNat]? = some 0 →
      td_retval < 0 ∨ td_retval = roomLeft st c

/-! ## The changelist -/

theorem ffNativeMapGet_kernel {st : FdState} {fd : ℤ} (h : ffIsKernelFd fd = true) :
    ffNativeMapGet st fd = 0 := by
  have hge : FF_KERNEL_FD_BASE ≤ fd := by simpa [ffIsKernelFd] using h
  have hlarge : FF_MAX_FREEBSD_FILES ≤ fd := by
    simp only [FF_KERNEL_FD_BASE, FF_MAX_FREEBSD_FILES] at *
    omega
  rw [ffNativeMapGet, if_pos (.inr hlarge)]

theorem ffKeventHostChange_snd (s : CoexistState) (kq : ℤ) (kev : RawKevent) (env : HostEnv) :
    (ffKeventHostChange s kq kev env).2 = (hostFdOf s.fds (fdOf kev.ident)).isSome := by
  unfold ffKeventHostChange
  split
  · rename_i h
    simp [h]
  · rename_i h
    simp only [h, Option.isSome_some]
    split
    · rfl
    · split
      · rfl
      · rfl

/-- A change is passed on exactly if it is not one of a kernel descriptor. -/
theorem passed_on_iff (s : CoexistState) (kq : ℤ) (kev : RawKevent) (env : HostEnv) :
    (!(ffKeventHostChange s kq kev env).2 ||
        decide (0 < ffNativeMapGet (ffKeventHostChange s kq kev env).1.fds (fdOf kev.ident))) =
      !ffIsKernelFd (fdOf kev.ident) := by
  rw [ffKeventHostChange_snd, ffNativeMapGet_congr (ffKeventHostChange_native s kq kev env)]
  by_cases hk : ffIsKernelFd (fdOf kev.ident)
  · simp [hostFdOf, hk, ffNativeMapGet_kernel hk]
  · by_cases hn : 0 < ffNativeMapGet s.fds (fdOf kev.ident)
    · simp [hk, hn]
    · simp [hostFdOf, hk, hn]

/-- What the loop over the changelist collects.
SOURCE: lib/ff_syscall_wrapper.c:2103-2108 -/
theorem keventChanges_snd (kq : ℤ) (s : CoexistState) (changelist : List (RawKevent × HostEnv)) :
    (keventChanges kq s changelist).2 = toSubmit changelist := by
  induction changelist generalizing s with
  | nil => rfl
  | cons ch rest ih =>
    obtain ⟨kev, env⟩ := ch
    simp only [keventChanges, ih, passed_on_iff, toSubmit, List.map_cons, List.filter_cons]

/-! ## The F-Stack kqueue -/

variable {q}

/-- The loop over the changes, where the reports fit, or the room is negative. -/
theorem changeLoop_fits {kq : K} {nevents : ℤ} {changes : List RawKevent}
    (h : nevents < 0 ∨ ((reportErrors q kq changes).length : ℤ) ≤ nevents) (nerrors : ℕ)
    (arg : Cursor RawKevent) :
    (changeLoop q kq nevents nerrors arg changes).returns = none ∧
      (changeLoop q kq nevents nerrors arg changes).nevents =
        nevents - (reportErrors q kq changes).length ∧
      (changeLoop q kq nevents nerrors arg changes).nerrors =
        nerrors + (reportErrors q kq changes).length ∧
      (changeLoop q kq nevents nerrors arg changes).arg.written.length =
        arg.written.length + (reportErrors q kq changes).length := by
  induction changes generalizing kq nevents nerrors arg with
  | nil => simp [changeLoop, reportErrors]
  | cons kev rest ih =>
    simp only [changeLoop, reportErrors] at h ⊢
    split
    · rename_i hfilter
      rw [if_pos hfilter] at h
      exact ih h nerrors arg
    · rename_i hfilter
      rw [if_neg hfilter] at h
      split
      · rename_i hreport
        simp only [if_pos hreport, List.length_cons, Nat.cast_add, Nat.cast_one] at h
        have hne : nevents ≠ 0 := by omega
        have hrest := @ih (q.register kq kev.withoutSys).1 (nevents - 1) (by omega)
          (nerrors + 1) (arg.put [changeReport kev.withoutSys (q.register kq kev.withoutSys).2])
        simp only [Cursor.put_written, List.length_append, List.length_singleton] at hrest
        rw [if_neg hne, List.length_cons]
        refine ⟨hrest.1, ?_, ?_, ?_⟩
        · omega
        · omega
        · omega
      · rename_i hreport
        rw [if_neg hreport] at h
        exact ih h nerrors arg

/-- The loop over the changes, where the reports do not fit: it ends at the first one for
which there is no room. -/
theorem changeLoop_stops {kq : K} {changes : List RawKevent}
    (h : (reportErrors q kq changes)[room]? = some error) (nerrors : ℕ) (arg : Cursor RawKevent) :
    (changeLoop q kq room nerrors arg changes).returns = some error ∧
      (changeLoop q kq room nerrors arg changes).arg.written.length = arg.written.length + room := by
  induction changes generalizing kq room nerrors arg with
  | nil => simp [reportErrors] at h
  | cons kev rest ih =>
    simp only [changeLoop, reportErrors] at h ⊢
    split
    · rename_i hfilter
      rw [if_pos hfilter] at h
      exact ih h nerrors arg
    · rename_i hfilter
      rw [if_neg hfilter] at h
      split
      · rename_i hreport
        rw [if_pos hreport] at h
        cases room with
        | zero => simpa using h
        | succ room =>
          have hrest := ih (by simpa using h) (nerrors + 1)
            (arg.put [changeReport kev.withoutSys (q.register kq kev.withoutSys).2])
          have hne : ((room + 1 : ℕ) : ℤ) ≠ 0 := by omega
          have hsub : ((room + 1 : ℕ) : ℤ) - 1 = room := by omega
          simp only [Cursor.put_written, List.length_append, List.length_singleton] at hrest
          rw [if_neg hne, hsub]
          exact ⟨hrest.1, by omega⟩
      · rename_i hreport
        rw [if_neg hreport] at h
        exact ih h nerrors arg

/-- The loop over the changes only writes to the event list. -/
theorem changeLoop_since {mem : ℕ → RawKevent} {pos : ℕ} (h : arg.Since mem pos) (kq : K) (nevents : ℤ)
    (nerrors : ℕ) (changes : List RawKevent) :
    (changeLoop q kq nevents nerrors arg changes).arg.Since mem pos := by
  induction changes generalizing kq nevents nerrors arg with
  | nil => exact h
  | cons kev rest ih =>
    simp only [changeLoop]
    split
    · exact ih h kq nevents nerrors
    · split
      · split
        · exact h
        · exact ih (h.put _) _ _ _
      · exact ih h _ _ _

/-- The loop of the scan takes at most `count` events.
SOURCE: freebsd/kern/kern_event.c:2083-2205 -/
theorem keventScanLoop_length (count : ℕ) (kq : K) (queue : List N) :
    (keventScanLoop q count kq queue).2.length ≤ count := by
  induction queue generalizing count kq with
  | nil => cases count <;> simp [keventScanLoop]
  | cons kn rest ih =>
    cases count with
    | zero => simp [keventScanLoop]
    | succ count =>
      simp only [keventScanLoop]
      split
      · exact ih (count + 1) _
      · exact Nat.succ_le_succ (ih count _)

section DoEach

variable (kq : K) (td_retval : ℤ) {changes : List RawKevent} (mem : ℕ → RawKevent) (pos : ℕ)

theorem keventScan_since (h : arg.Since mem pos) (maxevents : ℤ) :
    (keventScan q kq maxevents arg).arg.Since mem pos := by
  unfold keventScan
  split
  · exact h
  · split
    · exact h
    · exact h.put _

/-- A call only writes to the event list, from the start of its part on. -/
theorem ffKeventDoEach_since (changes : List RawKevent) (nevents : ℤ) :
    (ffKeventDoEach q kq td_retval changes mem pos nevents).arg.Since mem pos := by
  have hloop := changeLoop_since (q := q) (Cursor.since_start mem pos) kq nevents 0 changes
  simp only [ffKeventDoEach, kqueueKevent]
  split
  · exact hloop
  · split
    · exact hloop
    · exact keventScan_since _ mem pos hloop _

theorem keventScan_negative {maxevents : ℤ} (h : maxevents < 0) (arg : Cursor RawKevent) :
    (keventScan q kq maxevents arg).rc ≠ 0 := by
  rw [keventScan, if_neg h.ne, if_pos h]
  simp [Errno.number]

/-- A scan counts the events it writes, at most as many as there is room for. -/
theorem keventScan_fits (room : ℕ) (h : arg.written = []) :
    (keventScan q kq room arg).rc = 0 ∧
      (keventScan q kq room arg).td_retval = (keventScan q kq room arg).arg.written.length ∧
      (keventScan q kq room arg).arg.written.length ≤ room := by
  by_cases hroom : (room : ℤ) = 0
  · simp [keventScan, hroom, h]
  · have hneg : ¬ (room : ℤ) < 0 := by omega
    simp only [keventScan, if_neg hroom, if_neg hneg, Cursor.put_written, h, List.nil_append,
      Int.toNat_natCast]
    exact ⟨trivial, trivial, keventScanLoop_length room _ _⟩

/-- A call for whose reports there is room returns how many events it has written. -/
theorem ffKeventDoEach_fits (h : (reportErrors q kq changes).length ≤ room) :
    (ffKeventDoEach q kq td_retval changes mem pos room).rc =
        (ffKeventDoEach q kq td_retval changes mem pos room).arg.written.length ∧
      (ffKeventDoEach q kq td_retval changes mem pos room).arg.written.length ≤ room := by
  obtain ⟨hret, hnevents, hnerrors, hlen⟩ :=
    changeLoop_fits (q := q) (.inr (Int.ofNat_le.mpr h)) 0 (Cursor.start mem pos)
  have hstart : (Cursor.start mem pos).written.length = 0 := rfl
  rw [hstart, Nat.zero_add] at hlen
  rw [Nat.zero_add] at hnerrors
  simp only [ffKeventDoEach, kqueueKevent, hret, hnerrors]
  by_cases hnone : (reportErrors q kq changes).length = 0
  · -- no change is reported, so the whole room is left for the scan
    have hwritten := List.eq_nil_of_length_eq_zero (hlen.trans hnone)
    have hscan := keventScan_fits (q := q)
      (changeLoop q kq room 0 (Cursor.start mem pos) changes).kq room hwritten
    rw [if_neg (not_not.mpr hnone), hnevents, hnone, Nat.cast_zero, sub_zero,
      if_neg (not_not.mpr hscan.1)]
    exact hscan.2
  · rw [if_pos hnone, hlen]
    exact ⟨rfl, h⟩

/-- A call that has to report an error for which there is no room fails; where it is a receipt
for which there is none, it returns what `td_retval[0]` was. -/
theorem ffKeventDoEach_stops (h : (reportErrors q kq changes)[room]? = some error) :
    (ffKeventDoEach q kq td_retval changes mem pos room).rc = (if error = 0 then td_retval else -1) ∧
      (ffKeventDoEach q kq td_retval changes mem pos room).arg.written.length = room := by
  obtain ⟨hret, hlen⟩ := changeLoop_stops (q := q) h 0 (Cursor.start mem pos)
  simp only [ffKeventDoEach, kqueueKevent, hret]
  refine ⟨?_, by simpa [Cursor.start] using hlen⟩
  by_cases herror : error = 0
  · simp [herror]
  · have hne : (error : ℤ) ≠ 0 := by omega
    simp [herror]

/-- With a negative room, a call counts its reports, and fails if it has none. -/
theorem ffKeventDoEach_negative {nevents : ℤ} (hneg : nevents < 0) :
    (ffKeventDoEach q kq td_retval changes mem pos nevents).rc =
      if (reportErrors q kq changes).length = 0 then (-1 : ℤ)
      else (reportErrors q kq changes).length := by
  obtain ⟨hret, hnevents, hnerrors, hlen⟩ :=
    @changeLoop_fits K N q kq nevents changes (.inl hneg) 0 (Cursor.start mem pos)
  rw [Nat.zero_add] at hnerrors
  simp only [ffKeventDoEach, kqueueKevent, hret, hnerrors]
  by_cases hnone : (reportErrors q kq changes).length = 0
  · have hroom : nevents - ((reportErrors q kq changes).length : ℤ) < 0 := by omega
    rw [if_neg (not_not.mpr hnone), hnevents, if_pos (keventScan_negative _ hroom _), if_pos hnone]
  · rw [if_pos hnone, if_neg hnone]
    rfl

end DoEach

/-! ## The call -/

/-- The host's events that a call stores. -/
noncomputable def storedHost (st : CoexistState) (c : KeventCall) : List RawKevent :=
  open Classical in
  if c.eventlist.isSome ∧ 0 < c.nevents ∧ HasHostEp st.fds c.kq c.changelist then
    ffKeventHostWait c.ready c.nevents.toNat
  else []

theorem storedHost_length (st : CoexistState) (c : KeventCall) :
    (storedHost st c).length = hostCount st c := by
  unfold storedHost hostCount
  split
  · simp [ffKeventHostWait, ffHostKqueuePoll]
  · rfl

theorem hostCount_le (st : CoexistState) (c : KeventCall) : (hostCount st c : ℤ) ≤ max c.nevents 0 := by
  unfold hostCount
  split
  · omega
  · simp

/-- What the caller's array holds when the F-Stack kqueue is asked. -/
noncomputable def listBefore (st : CoexistState) (c : KeventCall) : ℕ → RawKevent :=
  writeAt (c.eventlist.getD fun _ => ⟨0, 0, {}, 0, 0, 0⟩) 0 (storedHost st c)

/-- What the F-Stack kqueue answers, where it is asked. -/
noncomputable def askFstack (q : KqueueOps K N) (st : CoexistState) (kq : K) (td_retval : ℤ)
    (c : KeventCall) : DoEach K :=
  ffKeventDoEach q kq td_retval (toSubmit c.changelist) (listBefore st c) (hostCount st c)
    (roomLeft st c)

variable {st : CoexistState} {kq : K} {td_retval : ℤ} {c : KeventCall}

theorem polledHostEp_isSome (st : CoexistState) (c : KeventCall) :
    (polledHostEp (keventChanges c.kq st c.changelist).1 c).isSome ↔
      c.eventlist.isSome ∧ 0 < c.nevents ∧ HasHostEp st.fds c.kq c.changelist := by
  rw [← hostEpOf_keventChanges, ← and_assoc, polledHostEp]
  split
  · rename_i h
    simp [h]
  · rename_i h
    simp [h]

theorem polledEvents_eq (st : CoexistState) (c : KeventCall) :
    polledEvents (keventChanges c.kq st c.changelist).1 c = storedHost st c := by
  have hep := polledHostEp_isSome st c
  rw [polledEvents, storedHost]
  cases h : polledHostEp (keventChanges c.kq st c.changelist).1 c with
  | some ep => rw [if_pos (hep.mp (by simp [h]))]
  | none => rw [if_neg fun hand => by simpa [h] using hep.mpr hand]

/-- The host's events fill the list. -/
def HostFull (st : CoexistState) (c : KeventCall) : Prop :=
  c.eventlist.isSome ∧ 0 < c.nevents ∧ roomLeft st c ≤ 0

theorem hostFull_iff (st : CoexistState) (c : KeventCall) :
    ((c.eventlist.isSome ∧ 0 < c.nevents ∧ HasHostEp st.fds c.kq c.changelist) ∧
        c.nevents ≤ (storedHost st c).length) ↔ HostFull st c := by
  rw [storedHost_length]
  constructor
  · rintro ⟨⟨hlist, hpos, -⟩, hle⟩
    refine ⟨hlist, hpos, ?_⟩
    rw [roomLeft, if_pos hlist]
    omega
  · rintro ⟨hlist, hpos, hroom⟩
    rw [roomLeft, if_pos hlist] at hroom
    refine ⟨⟨hlist, hpos, ?_⟩, by omega⟩
    by_contra hnot
    have hzero : hostCount st c = 0 := by
      rw [hostCount, if_neg fun h => hnot h.2.2]
    omega

/-- A call whose list the host's events fill.
SOURCE: lib/ff_syscall_wrapper.c:2113-2115 -/
theorem ffKevent_full (h : HostFull st c) :
    ffKevent q st kq td_retval c =
      ⟨hostCount st c, (keventChanges c.kq st c.changelist).1, kq, listBefore st c, [],
        storedHost st c, []⟩ := by
  have hfull : (polledHostEp (keventChanges c.kq st c.changelist).1 c).isSome ∧
      c.nevents ≤ (storedHost st c).length := by
    rw [polledHostEp_isSome]
    exact (hostFull_iff st c).mpr h
  simp only [ffKevent, polledEvents_eq, if_pos hfull]
  simp only [storedHost_length, listBefore]

/-- A call whose list the host's events do not fill.
SOURCE: lib/ff_syscall_wrapper.c:2119-2124 -/
theorem ffKevent_room (h : ¬ HostFull st c) :
    ffKevent q st kq td_retval c =
      if (askFstack q st kq td_retval c).rc < 0 then
        ⟨if 0 < hostCount st c then hostCount st c else -1, (keventChanges c.kq st c.changelist).1,
          (askFstack q st kq td_retval c).kq, (askFstack q st kq td_retval c).arg.mem,
          toSubmit c.changelist, storedHost st c, []⟩
      else
        ⟨hostCount st c + (askFstack q st kq td_retval c).rc,
          (keventChanges c.kq st c.changelist).1, (askFstack q st kq td_retval c).kq,
          (askFstack q st kq td_retval c).arg.mem, toSubmit c.changelist, storedHost st c,
          (askFstack q st kq td_retval c).arg.written⟩ := by
  have hroom : ¬ ((polledHostEp (keventChanges c.kq st c.changelist).1 c).isSome ∧
      c.nevents ≤ (storedHost st c).length) := by
    rw [polledHostEp_isSome, hostFull_iff]
    exact h
  simp only [ffKevent, polledEvents_eq, if_neg hroom]
  simp only [storedHost_length, keventChanges_snd]
  rfl

/-- The F-Stack kqueue writes right behind the host's events. -/
theorem askFstack_mem :
    (askFstack q st kq td_retval c).arg.mem =
      writeAt (c.eventlist.getD fun _ => ⟨0, 0, {}, 0, 0, 0⟩) 0
        (storedHost st c ++ (askFstack q st kq td_retval c).arg.written) := by
  have hsince := ffKeventDoEach_since (q := q) kq td_retval (listBefore st c) (hostCount st c)
    (toSubmit c.changelist) (roomLeft st c)
  calc (askFstack q st kq td_retval c).arg.mem
      = writeAt (listBefore st c) (hostCount st c) (askFstack q st kq td_retval c).arg.written :=
        hsince.mem_eq
    _ = _ := by
        rw [← writeAt_append, Nat.zero_add, storedHost_length]
        rfl

/-- The events that a call counts are in the list. -/
theorem ffKevent_events (i : ℕ)
    (hi : i < ((ffKevent q st kq td_retval c).host ++ (ffKevent q st kq td_retval c).fstack).length) :
    ((ffKevent q st kq td_retval c).host ++ (ffKevent q st kq td_retval c).fstack)[i]? =
      some ((ffKevent q st kq td_retval c).eventlist i) := by
  by_cases hfull : HostFull st c
  · rw [ffKevent_full hfull] at hi ⊢
    simp only [List.append_nil] at hi ⊢
    exact writeAt_zero_getElem? _ hi
  · rw [ffKevent_room hfull] at hi ⊢
    split at hi
    · rename_i hrc
      simp only [if_pos hrc, List.append_nil, askFstack_mem] at hi ⊢
      rw [← writeAt_zero_getElem? _ (by rw [List.length_append]; omega),
        List.getElem?_append_left hi]
    · rename_i hrc
      simp only [if_neg hrc, askFstack_mem] at hi ⊢
      exact writeAt_zero_getElem? _ hi

/-- The value returned, where the F-Stack kqueue counts what it writes, or fails. -/
theorem ffKevent_count (hfull : ¬ HostFull st c)
    (h : (askFstack q st kq td_retval c).rc < 0 ∨
      (askFstack q st kq td_retval c).rc = (askFstack q st kq td_retval c).arg.written.length ∧
        hostCount st c + (askFstack q st kq td_retval c).rc ≤ max c.nevents 0)
    (hret : 0 ≤ (ffKevent q st kq td_retval c).ret) :
    (ffKevent q st kq td_retval c).ret ≤ max c.nevents 0 ∧
      (ffKevent q st kq td_retval c).ret =
        ((ffKevent q st kq td_retval c).host ++ (ffKevent q st kq td_retval c).fstack).length := by
  have hle := hostCount_le st c
  rw [ffKevent_room hfull] at hret ⊢
  rcases h with hneg | ⟨hrc, hroom⟩
  · rw [if_pos hneg] at hret ⊢
    simp only [List.append_nil, storedHost_length] at hret ⊢
    split at hret
    · rename_i hpos
      rw [if_pos hpos]
      exact ⟨hle, rfl⟩
    · omega
  · have hnot : ¬ (askFstack q st kq td_retval c).rc < 0 := by omega
    rw [if_neg hnot] at hret ⊢
    simp only [List.length_append, storedHost_length]
    exact ⟨hroom, by rw [hrc, Nat.cast_add]⟩

theorem roomLeft_neg (hfull : ¬ HostFull st c) (hneg : roomLeft st c < 0) :
    c.eventlist.isSome ∧ c.nevents < 0 := by
  by_cases hlist : c.eventlist.isSome
  · by_cases hpos : 0 < c.nevents
    · exact absurd ⟨hlist, hpos, hneg.le⟩ hfull
    · rw [roomLeft, if_pos hlist, hostCount, if_neg fun h => hpos h.2.1] at hneg
      exact ⟨hlist, by simpa using hneg⟩
  · rw [roomLeft, if_neg hlist] at hneg
    exact absurd hneg (lt_irrefl 0)

/-- The two kernels together have the room that the list has. -/
theorem hostCount_add_roomLeft (st : CoexistState) (c : KeventCall) :
    hostCount st c + roomLeft st c ≤ max c.nevents 0 := by
  have hle := hostCount_le st c
  unfold roomLeft
  split
  · omega
  · omega

/-- The value returned is the number of events, and there was room for them. -/
def CountOk (c : KeventCall) (r : KeventResult K) : Prop :=
  0 ≤ r.ret → r.ret ≤ max c.nevents 0 ∧ r.ret = (r.host ++ r.fstack).length

/-- A list of negative length. -/
theorem countOk_iff_of_negative (hfull : ¬ HostFull st c) (hneg : roomLeft st c < 0) :
    CountOk c (ffKevent q st kq td_retval c) ↔
      reportErrors q kq (toSubmit c.changelist) = [] := by
  have hrc : (askFstack q st kq td_retval c).rc = _ :=
    ffKeventDoEach_negative kq td_retval (listBefore st c) (hostCount st c) hneg
  constructor
  · intro hok
    by_contra hne
    have hlen : (reportErrors q kq (toSubmit c.changelist)).length ≠ 0 :=
      fun h => hne (List.eq_nil_of_length_eq_zero h)
    rw [if_neg hlen] at hrc
    have hret : (ffKevent q st kq td_retval c).ret =
        hostCount st c + (reportErrors q kq (toSubmit c.changelist)).length := by
      rw [ffKevent_room hfull, if_neg (by rw [hrc]; omega), hrc]
    have hnevents : c.nevents < 0 := (roomLeft_neg hfull hneg).2
    have hbound := (hok (by omega)).1
    omega
  · intro hnil
    rw [hnil, List.length_nil, if_pos rfl] at hrc
    have hfail : (askFstack q st kq td_retval c).rc < 0 := by
      rw [hrc]
      omega
    exact ffKevent_count hfull (.inl hfail)

/-- A list for whose reports there is room. -/
theorem countOk_of_fits (hfull : ¬ HostFull st c) (hroom : roomLeft st c = room)
    (hfits : (reportErrors q kq (toSubmit c.changelist)).length ≤ room) :
    CountOk c (ffKevent q st kq td_retval c) := by
  obtain ⟨hrc, hle⟩ := ffKeventDoEach_fits (q := q) kq td_retval (listBefore st c) (hostCount st c) hfits
  rw [← hroom] at hrc hle
  refine ffKevent_count hfull (.inr ⟨hrc, ?_⟩)
  have hsum := hostCount_add_roomLeft st c
  rw [askFstack, hrc]
  omega

/-- A list that is full when the kqueue has something to report. -/
theorem countOk_iff_of_stops (hfull : ¬ HostFull st c) (hroom : roomLeft st c = room)
    (hstops : (reportErrors q kq (toSubmit c.changelist))[room]? = some error) :
    CountOk c (ffKevent q st kq td_retval c) ↔ error = 0 → td_retval < 0 ∨ td_retval = room := by
  obtain ⟨hrc, hlen⟩ :=
    ffKeventDoEach_stops (q := q) kq td_retval (listBefore st c) (hostCount st c) hstops
  rw [← hroom] at hrc hlen
  have hsum := hostCount_add_roomLeft st c
  constructor
  · intro hok herror
    rw [if_pos herror] at hrc
    by_contra hbad
    rw [not_or] at hbad
    have hask : (askFstack q st kq td_retval c).rc = td_retval := hrc
    have hnot : ¬ (askFstack q st kq td_retval c).rc < 0 := by omega
    have hres : ffKevent q st kq td_retval c = _ := ffKevent_room hfull
    rw [if_neg hnot, hask] at hres
    rw [CountOk, hres] at hok
    have hcount := (hok (by dsimp only; omega)).2
    simp only [List.length_append, storedHost_length] at hcount
    have hwritten : (askFstack q st kq td_retval c).arg.written.length = room := hlen
    omega
  · intro hcond
    by_cases herror : error = 0
    · rw [if_pos herror] at hrc
      rcases hcond herror with htd | htd
      · exact ffKevent_count hfull (.inl (by rw [askFstack, hrc]; exact htd))
      · refine ffKevent_count hfull (.inr ⟨?_, ?_⟩)
        · rw [askFstack, hrc, hlen]
          exact htd
        · rw [askFstack, hrc]
          omega
    · rw [if_neg herror] at hrc
      exact ffKevent_count hfull (.inl (by rw [askFstack, hrc]; omega))

/-- Where the host's events do not fill the list, the count is right exactly if the reports of
the kqueue fit. -/
theorem countOk_iff (hfull : ¬ HostFull st c) :
    CountOk c (ffKevent q st kq td_retval c) ↔
      (c.eventlist.isSome → c.nevents < 0 → reportErrors q kq (toSubmit c.changelist) = []) ∧
      (0 ≤ roomLeft st c →
        (reportErrors q kq (toSubmit c.changelist))[(roomLeft st c).toNat]? = some 0 →
          td_retval < 0 ∨ td_retval = roomLeft st c) := by
  rcases lt_or_ge (roomLeft st c) 0 with hneg | hnonneg
  · rw [countOk_iff_of_negative hfull hneg]
    have hlist := roomLeft_neg hfull hneg
    constructor
    · exact fun h => ⟨fun _ _ => h, fun hroom => absurd hroom (not_le.mpr hneg)⟩
    · exact fun h => h.1 hlist.1 hlist.2
  · obtain ⟨room, hroom⟩ := Int.eq_ofNat_of_zero_le hnonneg
    have hnevents : c.eventlist.isSome → ¬ c.nevents < 0 := by
      intro hlist hneg
      rw [roomLeft, if_pos hlist] at hroom
      omega
    have hfirst : (c.eventlist.isSome → c.nevents < 0 →
        reportErrors q kq (toSubmit c.changelist) = []) :=
      fun hlist hneg => absurd hneg (hnevents hlist)
    rw [hroom, Int.toNat_natCast]
    cases hat : (reportErrors q kq (toSubmit c.changelist))[room]? with
    | none =>
      have hok : CountOk c (ffKevent q st kq td_retval c) :=
        countOk_of_fits hfull hroom (List.getElem?_eq_none_iff.mp hat)
      exact iff_of_true hok ⟨hfirst, fun _ h => nomatch h⟩
    | some error =>
      rw [countOk_iff_of_stops hfull hroom hat]
      constructor
      · exact fun h => ⟨hfirst, fun _ herror => h (Option.some.inj herror)⟩
      · exact fun h herror => h.2 (Int.natCast_nonneg room) (by rw [herror])

/-- The call does what it has to do exactly if its arguments fit.
SOURCE: lib/ff_syscall_wrapper.c:2094-2128 -/
theorem ffKevent_applies_iff (q : KqueueOps K N) (st : CoexistState) (kq : K) (td_retval : ℤ)
    (c : KeventCall) :
    KeventApplies c (ffKevent q st kq td_retval c) ↔ CallFits q st kq td_retval c := by
  by_cases hfull : HostFull st c
  · -- the call returns before the changes are submitted
    have hres : ffKevent q st kq td_retval c = _ := ffKevent_full hfull
    constructor
    · intro h
      have hnone : toSubmit c.changelist = [] := by
        rw [← h.submitted, hres]
      refine ⟨fun hne => absurd hnone hne, ?_, ?_⟩
      · intro _ _
        rw [hnone, reportErrors]
      · intro _ hat
        rw [hnone, reportErrors] at hat
        cases hat
    · intro h
      have hnone : toSubmit c.changelist = [] := by
        by_contra hne
        exact absurd (h.room hne hfull.1 hfull.2.1) (not_lt.mpr hfull.2.2)
      refine ⟨?_, ?_, ?_, ffKevent_events⟩
      · rw [hnone, hres]
      · intro _
        rw [hres]
        exact hostCount_le st c
      · intro _
        rw [hres, List.append_nil, storedHost_length]
  · have hcount : CountOk c (ffKevent q st kq td_retval c) ↔ _ := countOk_iff hfull
    constructor
    · intro h
      obtain ⟨hnonneg, hreceipt⟩ := hcount.mp fun hret => ⟨h.count_le hret, h.count_eq hret⟩
      refine ⟨?_, hnonneg, hreceipt⟩
      intro _ hlist hpos
      exact not_le.mp fun hle => hfull ⟨hlist, hpos, hle⟩
    · intro h
      have hok := hcount.mpr ⟨h.nonneg, h.receipt⟩
      refine ⟨?_, fun hret => (hok hret).1, fun hret => (hok hret).2, ffKevent_events⟩
      rw [ffKevent_room hfull]
      split
      · rfl
      · rfl

end Kqueue

/-- The F-Stack kqueue on knotes: `kqueue_register` for the two filters of files, and `kqueue_scan` over
the knotes that are active. -/
def fileKqueue (env : RegisterEnv) (ready : List Ready) : KqueueOps KnoteTable Ready where
  register kq kev :=
    if kev.filter = EVFILT_READ then registered kq (kqueueRegister env kq { kev with filter := .read })
    else if kev.filter = EVFILT_WRITE then
      registered kq (kqueueRegister env kq { kev with filter := .write })
    else (kq, Errno.EINVAL.number)
  queue _ := ready
  take kq r := ((scanOne kq r).1, (scanOne kq r).2.map Kevent.raw)
where
  registered (kq : KnoteTable) : Except Errno KnoteTable → KnoteTable × ℕ
    | .ok kq' => (kq', 0)
    | .error e => (kq, e.number)

/-- A process with the kqueue 3, the F-Stack socket 5, and the kernel socket of the number
`0x40000007`, which the host epoll 9 of the kqueue watches. -/
def onePairState : CoexistState where
  fds := { fdStart (fun h => h = 7 ∨ h = 9) with
    files := fun fd => if fd = 3 ∨ fd = 5 then some 0 else none
    epoll_pairs := fun i => if i = 0 then ⟨3, 9⟩ else {} }
  interest ep hfd := if ep = 9 ∧ hfd = 7 then some ⟨EPOLLIN, 0x40000007⟩ else none

/-- `ff_kevent` with one change, `EV_ADD` of the socket 5, and room for one event, while the kernel
socket has data. -/
def addWhileReady : KeventCall where
  kq := 3
  changelist := [({ ident := 5, filter := EVFILT_READ, flags := { EV_ADD := true } }, {})]
  eventlist := some fun _ => { ident := 0, filter := 0 }
  nevents := 1
  ready := some [⟨EPOLLIN, 0x40000007⟩]

/-- The change is not submitted.
SOURCE: lib/ff_syscall_wrapper.c:2114-2115 -/
theorem addWhileReady_lost :
    ¬ KeventApplies addWhileReady
      (ffKevent (fileKqueue {} []) onePairState (fun _ _ => none) 0 addWhileReady) := by
  intro h
  have hsubmitted := h.submitted
  have hnone : (ffKevent (fileKqueue {} []) onePairState (fun _ _ => none) 0
      addWhileReady).submitted = [] := by decide
  have hone : toSubmit addWhileReady.changelist =
      [{ ident := 5, filter := EVFILT_READ, flags := { EV_ADD := true } }] := by decide
  rw [hnone, hone] at hsubmitted
  cases hsubmitted

end FStack.Analysis
