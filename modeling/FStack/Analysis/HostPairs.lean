import FStack.Model.KeventCoexist

/-!
# The host epoll of a kqueue

When a call of `ff_kevent` finds a host epoll for its kqueue: there was one before the call, or one of
the changes made it.  A change makes one only if a slot is free and the host has a descriptor for it;
nothing else that a later change looks at is different after it.
-/

set_option autoImplicit false

namespace FStack.Analysis

open FStack.Model

variable {n : Option ℤ} {kev : RawKevent} {env : HostEnv}

/-- A slot is free, and the host finds the new descriptor `n` for the epoll. -/
def CanPair (st : FdState) (n : Option ℤ) : Prop :=
  (freeSlot st).isSome ∧ ∃ ep, n = some ep ∧ 0 < ep ∧ st.host ep = none

/-- The change asks for a host epoll.
SOURCE: lib/ff_syscall_wrapper.c:2064-2071 -/
def AsksHostEp (st : FdState) (kev : RawKevent) : Prop :=
  (hostFdOf st (fdOf kev.ident)).isSome ∧ kev.flags.EV_DELETE = false ∧
    (kev.flags.EV_ADD = true ∨ kev.flags.EV_ENABLE = true)

/-- The kqueue has a host epoll, or gets one from the changes. -/
def HasHostEp (st : FdState) (kq : ℤ) (changelist : List (RawKevent × HostEnv)) : Prop :=
  (hostEpOf st kq).isSome ∨ ∃ ch ∈ changelist, AsksHostEp st ch.1 ∧ CanPair st ch.2.create

variable {st st' : FdState} {kq : ℤ}

theorem hostEpOf_eq_none : hostEpOf st kq = none ↔ findPair st kq = none := by
  simp [hostEpOf]

/-- After a slot is set for a kqueue without a pair, that slot is its pair. -/
theorem hostEpOf_setPair (hnone : findPair st kq = none) {slot : ℕ} (hslot : slot < FF_EPOLL_COEXIST_MAX)
    {ep : ℤ} (hep : 0 < ep) : hostEpOf (st.setPair slot ⟨kq, ep⟩) kq = some ep := by
  have hsome : (findPair (st.setPair slot ⟨kq, ep⟩) kq).isSome := by
    rw [findPair, List.find?_isSome]
    exact ⟨slot, List.mem_range.mpr hslot, by simp [FdState.setPair, hep]⟩
  obtain ⟨i, hi⟩ := Option.isSome_iff_exists.mp hsome
  have hpred := List.find?_some hi
  have hmem := List.mem_of_find?_eq_some hi
  -- a pair in any other slot would have been found before
  have heq : i = slot := by
    by_contra hne
    rw [findPair, List.find?_eq_none] at hnone
    have hold := hnone i hmem
    simp only [FdState.setPair, Function.update_of_ne hne] at hpred
    exact hold hpred
  rw [hostEpOf, hi, heq]
  simp [FdState.setPair]

/-- What the changes of a call look at is the same, of the host's table the positive numbers. -/
structure SamePairs (st st' : FdState) : Prop where
  pairs : st'.epoll_pairs = st.epoll_pairs
  native : st'.native_fd_map = st.native_fd_map
  host : ∀ ep, 0 < ep → st'.host ep = st.host ep

theorem SamePairs.refl (st : FdState) : SamePairs st st := ⟨rfl, rfl, fun _ _ => rfl⟩

theorem SamePairs.hostEpOf (h : SamePairs st st') (kq : ℤ) : hostEpOf st' kq = hostEpOf st kq := by
  simp only [Model.hostEpOf, findPair, h.pairs]

theorem hostFdOf_congr (h : st'.native_fd_map = st.native_fd_map) (fd : ℤ) :
    hostFdOf st' fd = hostFdOf st fd := by
  simp only [hostFdOf, ffNativeMapGet_congr h]

theorem SamePairs.canPair_iff (h : SamePairs st st') (n : Option ℤ) : CanPair st' n ↔ CanPair st n := by
  simp only [CanPair, freeSlot, h.pairs]
  refine and_congr_right fun _ => exists_congr fun ep => and_congr_right fun _ => ?_
  exact and_congr_right fun hep => by rw [h.host ep hep]

theorem SamePairs.hasHostEp_iff (h : SamePairs st st') (kq : ℤ)
    (changelist : List (RawKevent × HostEnv)) :
    HasHostEp st' kq changelist ↔ HasHostEp st kq changelist := by
  simp only [HasHostEp, AsksHostEp, h.hostEpOf, hostFdOf_congr h.native, h.canPair_iff]

/-- Where a host epoll cannot be made, nothing that matters changes. -/
theorem samePairs_of_not_canPair (hnone : findPair st kq = none) (h : ¬ CanPair st n) :
    SamePairs st (ffEpollHostEp st kq n) := by
  unfold ffEpollHostEp
  rw [hnone]
  cases hslot : freeSlot st with
  | none => exact .refl st
  | some slot =>
    dsimp only
    cases hn : freeNumber st.host n with
    | none => exact .refl st
    | some ep =>
      obtain ⟨hfind, -, hfree⟩ := freeNumber_eq_some hn
      dsimp only
      split
      · rename_i hep
        exact absurd ⟨by simp [hslot], ep, hfind, hep, hfree⟩ h
      · refine ⟨rfl, rfl, fun x hx => ?_⟩
        have hne : x ≠ ep := by omega
        simp [FdState.openHost, FdState.setHost, hne]

/-- Where a host epoll can be made, it is the pair of the kqueue. -/
theorem hostEpOf_of_canPair (hnone : findPair st kq = none) (h : CanPair st n) :
    (hostEpOf (ffEpollHostEp st kq n) kq).isSome := by
  obtain ⟨hslot, ep, rfl, hep, hfree⟩ := h
  obtain ⟨slot, hslot⟩ := Option.isSome_iff_exists.mp hslot
  have hn : freeNumber st.host (some ep) = some ep := by
    simp [freeNumber, Option.filter, hfree, hep.le]
  have hnone' : findPair (st.openHost ep) kq = none := hnone
  simp [ffEpollHostEp, hnone, hslot, hn, hep, hostEpOf_setPair hnone' (freeSlot_eq_some hslot).1 hep]

theorem ffEpollHostEp_native (st : FdState) (kq : ℤ) (n : Option ℤ) :
    (ffEpollHostEp st kq n).native_fd_map = st.native_fd_map := by
  unfold ffEpollHostEp
  split
  · split
    · rfl
    · split
      · rfl
      · rfl
  · rfl

/-! ## The states of a call -/

variable {s : CoexistState}

@[simp] theorem kqueueCtl_fds (s : CoexistState) (kq : ℤ) (env : HostCtlEnv) (del : Bool)
    (hfd app_fd : ℤ) (want_write : Bool) :
    (s.kqueueCtl kq env del hfd app_fd want_write).fds = s.fds := by
  unfold CoexistState.kqueueCtl
  split
  · rfl
  · rfl

theorem createHostEp_of_some (h : (hostEpOf s.fds kq).isSome) (n : Option ℤ) :
    s.createHostEp kq n = s := by
  obtain ⟨ep, hep⟩ := Option.isSome_iff_exists.mp h
  simp [CoexistState.createHostEp, hep]

theorem createHostEp_fds_of_none (h : hostEpOf s.fds kq = none) (n : Option ℤ) :
    (s.createHostEp kq n).fds = ffEpollHostEp s.fds kq n := by
  simp only [CoexistState.createHostEp, h]
  split
  · rfl
  · rfl

theorem createHostEp_native (s : CoexistState) (kq : ℤ) (n : Option ℤ) :
    (s.createHostEp kq n).fds.native_fd_map = s.fds.native_fd_map := by
  cases h : hostEpOf s.fds kq with
  | some ep => rw [createHostEp_of_some (by simp [h])]
  | none => rw [createHostEp_fds_of_none h, ffEpollHostEp_native]

/-- No change of a call changes the map of the dual-stack sockets. -/
theorem ffKeventHostChange_native (s : CoexistState) (kq : ℤ) (kev : RawKevent) (env : HostEnv) :
    (ffKeventHostChange s kq kev env).1.fds.native_fd_map = s.fds.native_fd_map := by
  unfold ffKeventHostChange
  split
  · rfl
  · split
    · rw [kqueueCtl_fds]
    · split
      · rw [kqueueCtl_fds, createHostEp_native]
      · rfl

/-- A change that does not ask for a host epoll leaves the descriptors as they are. -/
theorem ffKeventHostChange_fds (h : ¬ AsksHostEp s.fds kev) (env : HostEnv) :
    (ffKeventHostChange s kq kev env).1.fds = s.fds := by
  unfold ffKeventHostChange
  split
  · rfl
  · rename_i hfd hhfd
    split
    · rw [kqueueCtl_fds]
    · rename_i hdel
      split
      · rename_i hadd
        refine absurd ⟨by simp [hhfd], by simpa using hdel, by simpa using hadd⟩ h
      · rfl

/-- A change that asks for a host epoll does to the descriptors what `ff_epoll_host_ep` does. -/
theorem ffKeventHostChange_fds_of_asks (h : AsksHostEp s.fds kev) (env : HostEnv) :
    (ffKeventHostChange s kq kev env).1.fds = (s.createHostEp kq env.create).fds := by
  obtain ⟨hhfd, hdel, hadd⟩ := h
  obtain ⟨hfd, hhfd⟩ := Option.isSome_iff_exists.mp hhfd
  have hadd' : (kev.flags.EV_ADD || kev.flags.EV_ENABLE) = true := by simpa using hadd
  simp [ffKeventHostChange, hhfd, hdel, hadd']

/-- A change that asks for a host epoll that can be made gives it to the kqueue. -/
theorem ffKeventHostChange_makes (hnone : hostEpOf s.fds kq = none) (hasks : AsksHostEp s.fds kev)
    (hcan : CanPair s.fds env.create) :
    (hostEpOf (ffKeventHostChange s kq kev env).1.fds kq).isSome := by
  rw [ffKeventHostChange_fds_of_asks hasks, createHostEp_fds_of_none hnone]
  exact hostEpOf_of_canPair (hostEpOf_eq_none.mp hnone) hcan

/-- Any other change of a kqueue without a host epoll changes nothing that matters. -/
theorem ffKeventHostChange_same (hnone : hostEpOf s.fds kq = none)
    (h : ¬ (AsksHostEp s.fds kev ∧ CanPair s.fds env.create)) :
    SamePairs s.fds (ffKeventHostChange s kq kev env).1.fds := by
  by_cases hasks : AsksHostEp s.fds kev
  · rw [ffKeventHostChange_fds_of_asks hasks, createHostEp_fds_of_none hnone]
    exact samePairs_of_not_canPair (hostEpOf_eq_none.mp hnone) fun hcan => h ⟨hasks, hcan⟩
  · rw [ffKeventHostChange_fds hasks]
    exact .refl s.fds

/-- A kqueue keeps its host epoll. -/
theorem ffKeventHostChange_keeps (h : (hostEpOf s.fds kq).isSome) (kev : RawKevent) (env : HostEnv) :
    (ffKeventHostChange s kq kev env).1.fds = s.fds := by
  by_cases hasks : AsksHostEp s.fds kev
  · rw [ffKeventHostChange_fds_of_asks hasks, createHostEp_of_some h]
  · exact ffKeventHostChange_fds hasks env

/-- INTERNAL: after the changes the kqueue has a host epoll exactly if it had one, or one of the
changes could make it. -/
theorem hostEpOf_keventChanges (kq : ℤ) (s : CoexistState) (changelist : List (RawKevent × HostEnv)) :
    (hostEpOf (keventChanges kq s changelist).1.fds kq).isSome ↔
      HasHostEp s.fds kq changelist := by
  induction changelist generalizing s with
  | nil => simp [keventChanges, HasHostEp]
  | cons ch rest ih =>
    obtain ⟨kev, env⟩ := ch
    have hrec : (keventChanges kq s ((kev, env) :: rest)).1 =
        (keventChanges kq (ffKeventHostChange s kq kev env).1 rest).1 := rfl
    rw [hrec, ih]
    cases hep : hostEpOf s.fds kq with
    | some ep =>
      rw [ffKeventHostChange_keeps (by simp [hep])]
      simp [HasHostEp, hep]
    | none =>
      by_cases hmakes : AsksHostEp s.fds kev ∧ CanPair s.fds env.create
      · exact iff_of_true (.inl (ffKeventHostChange_makes hep hmakes.1 hmakes.2))
          (.inr ⟨_, List.mem_cons_self, hmakes⟩)
      · rw [(ffKeventHostChange_same hep hmakes).hasHostEp_iff]
        simp only [HasHostEp, hep, List.exists_mem_cons_iff, hmakes, false_or]

end FStack.Analysis
