import FStack.Analysis.EpollKnotes
import FStack.Analysis.HostPairs

/-!
# The host epoll as a mirror of the filters

A descriptor with a kernel side has two filters in a kqueue and one registration in the host epoll.  The
registration has to ask for exactly the directions whose filter is added and enabled.

`ff_host_kqueue_ctl` writes the registration for one filter at a time: a filter that is added or enabled
replaces the registration by its own direction, a filter that is deleted takes all of it away, and a
filter that is disabled changes nothing.  A poll makes one kevent of each report.
`hostRun_mirrors_iff` says when this is enough.
-/

set_option autoImplicit false

namespace FStack.Analysis

open FStack.Prelude FStack.Model

/-- What is registered for a host descriptor in the host epoll of a kqueue. -/
def hostReg (s : CoexistState) (kq hfd : ℤ) : Option HostEvent :=
  (hostEpOf s.fds kq).bind fun ep => s.interest ep hfd

/-- The filter is added and enabled. -/
def active (knotes : KnoteTable) (ident : BitVec 64) (f : EvFilter) : Bool :=
  match knotes ident f with
  | some kn => !kn.disabled
  | none => false

/-- A registration asks for exactly the directions that are active. -/
structure Mirrors (reg : Option HostEvent) (act : EvFilter → Bool) : Prop where
  direction : ∀ f, (∃ ev, reg = some ev ∧ hasBit ev.events (directionBit f) = true) ↔ act f = true
  registered : reg.isSome ↔ ∃ f, act f = true

/-! ## Registrations -/

theorem hasBit_directionBit (f g : EvFilter) :
    hasBit (directionBit f) (directionBit g) = decide (g = f) := by
  cases f <;> cases g <;> decide

theorem mirrors_none {act : EvFilter → Bool} : Mirrors none act ↔ ∀ f, act f = false := by
  constructor
  · intro h f
    by_contra hf
    exact absurd (h.registered.mpr ⟨f, by simpa using hf⟩) (by simp)
  · intro h
    exact ⟨fun f => by simp [h f], by simp [h]⟩

theorem mirrors_one {act : EvFilter → Bool} {f : EvFilter} {fd : ℤ} :
    Mirrors (some ⟨directionBit f, fd⟩) act ↔ ∀ g, act g = decide (g = f) := by
  constructor
  · intro h g
    have hg := h.direction g
    simp only [Option.some.injEq, exists_eq_left', hasBit_directionBit] at hg
    exact (Bool.eq_iff_iff.mpr hg).symm
  · intro h
    refine ⟨fun g => ?_, ?_⟩
    · simp [hasBit_directionBit, h g]
    · simp [h]

/-- A registration mirrors only one state of the filters. -/
theorem Mirrors.unique {reg : Option HostEvent} {act act' : EvFilter → Bool} (h : Mirrors reg act)
    (h' : Mirrors reg act') : act' = act := by
  funext f
  exact Bool.eq_iff_iff.mpr ((h'.direction f).symm.trans (h.direction f))

/-! ## One change on the host -/

section Host

variable {env : HostCtlEnv} {interest : HostInterest} {hfd x fd : ℤ} {w : Bool}

/-- The event that `ff_host_kqueue_ctl` registers. -/
def wantedEvent (w : Bool) (fd : ℤ) : HostEvent := ⟨if w then EPOLLOUT else EPOLLIN, fd⟩

theorem hostEpollCtl_ne (hx : x ≠ hfd) (op : EpollCtlOp) (ev : HostEvent) :
    (hostEpollCtl env interest op hfd ev).1 x = interest x := by
  unfold hostEpollCtl
  split
  · rfl
  · cases op <;> cases interest hfd <;> cases env.insert <;> simp [hx]

theorem ffHostKqueueCtl_ne (hx : x ≠ hfd) (del : Bool) :
    ffHostKqueueCtl env interest del hfd fd w x = interest x := by
  cases del with
  | true => exact hostEpollCtl_ne hx _ _
  | false =>
    have hadd : (hostEpollCtl env interest .add hfd (wantedEvent w fd)).1 x = interest x :=
      hostEpollCtl_ne hx _ _
    unfold ffHostKqueueCtl
    simp only [Bool.false_eq_true, if_false]
    simp only [wantedEvent] at hadd
    generalize hostEpollCtl env interest .add hfd ⟨if w then EPOLLOUT else EPOLLIN, fd⟩ = r at hadd ⊢
    rcases r with ⟨interest', _ | e⟩
    · exact hadd
    · cases e with
      | EEXIST => exact (hostEpollCtl_ne hx .mod _).trans hadd
      | EINVAL | EBADF | ENOENT | ENOMEM | other => exact hadd

theorem ffHostKqueueCtl_refused {e : Errno} (h : env.fd = some e) (del : Bool) :
    ffHostKqueueCtl env interest del hfd fd w = interest := by
  unfold ffHostKqueueCtl hostEpollCtl
  cases del <;> cases e <;> simp [h]

theorem ffHostKqueueCtl_del (h : env.fd = none) : ffHostKqueueCtl env interest true hfd fd w hfd = none := by
  unfold ffHostKqueueCtl hostEpollCtl
  cases hreg : interest hfd <;> simp [h, hreg]

theorem ffHostKqueueCtl_add (h : env.fd = none) (hinsert : interest hfd = none → env.insert = none) :
    ffHostKqueueCtl env interest false hfd fd w hfd = some (wantedEvent w fd) := by
  unfold ffHostKqueueCtl hostEpollCtl
  cases hreg : interest hfd with
  | some ev => simp [h, hreg, wantedEvent]
  | none => simp [h, hinsert hreg, wantedEvent]

theorem ffHostKqueueCtl_not_inserted {e : Errno} (h : env.fd = none) (hreg : interest hfd = none)
    (hinsert : env.insert = some e) : ffHostKqueueCtl env interest false hfd fd w = interest := by
  unfold ffHostKqueueCtl hostEpollCtl
  cases e <;> simp [h, hreg, hinsert]

end Host

/-! ## One change -/

/-- The change takes the registration away. -/
def HostRemoves (kev : Kevent) (env : HostEnv) : Prop :=
  kev.flags.EV_DELETE = true ∧ env.ctl.fd = none

/-- The change replaces the registration by the direction of its filter: there is a host epoll or one
can be made, and it takes the registration. -/
def HostReplaces (s : CoexistState) (kq hfd : ℤ) (kev : Kevent) (env : HostEnv) : Prop :=
  kev.flags.EV_DELETE = false ∧ (kev.flags.EV_ADD = true ∨ kev.flags.EV_ENABLE = true) ∧
    ((hostEpOf s.fds kq).isSome ∨ CanPair s.fds env.create) ∧
    env.ctl.fd = none ∧ (hostReg s kq hfd = none → env.ctl.insert = none)

section Change

variable {s : CoexistState} {kq hfd x : ℤ} {kev : Kevent} {env : HostEnv}

theorem hostReg_of_none (h : hostEpOf s.fds kq = none) (x : ℤ) : hostReg s kq x = none := by
  simp [hostReg, h]

theorem hostReg_of_some {ep : ℤ} (h : hostEpOf s.fds kq = some ep) (x : ℤ) :
    hostReg s kq x = s.interest ep x := by
  simp [hostReg, h]

/-- A host epoll that is made has no registrations, as the kqueue had none. -/
theorem hostReg_createHostEp (s : CoexistState) (kq : ℤ) (n : Option ℤ) (x : ℤ) :
    hostReg (s.createHostEp kq n) kq x = hostReg s kq x := by
  cases h : hostEpOf s.fds kq with
  | some ep => rw [createHostEp_of_some (by simp [h])]
  | none =>
    rw [hostReg_of_none h]
    cases hnew : hostEpOf (ffEpollHostEp s.fds kq n) kq with
    | some ep =>
      have hfds : hostEpOf (s.createHostEp kq n).fds kq = some ep := by
        rw [createHostEp_fds_of_none h, hnew]
      rw [hostReg_of_some hfds]
      simp [CoexistState.createHostEp, h, hnew]
    | none => exact hostReg_of_none (by rw [createHostEp_fds_of_none h, hnew]) x

theorem createHostEp_isSome (s : CoexistState) (kq : ℤ) (n : Option ℤ) :
    (hostEpOf (s.createHostEp kq n).fds kq).isSome ↔
      (hostEpOf s.fds kq).isSome ∨ CanPair s.fds n := by
  cases h : hostEpOf s.fds kq with
  | some ep =>
    rw [createHostEp_of_some (by simp [h])]
    simp [h]
  | none =>
    have hpair := hostEpOf_eq_none.mp h
    rw [createHostEp_fds_of_none h]
    by_cases hcan : CanPair s.fds n
    · exact iff_of_true (hostEpOf_of_canPair hpair hcan) (.inr hcan)
    · rw [(samePairs_of_not_canPair hpair hcan).hostEpOf, h]
      simp [hcan]

/-- The registration for a host descriptor after `ff_host_kqueue_ctl`. -/
theorem hostReg_kqueueCtl {ep : ℤ} (h : hostEpOf s.fds kq = some ep) (ctl : HostCtlEnv) (del : Bool)
    (hfd fd : ℤ) (w : Bool) (x : ℤ) :
    hostReg (s.kqueueCtl kq ctl del hfd fd w) kq x =
      ffHostKqueueCtl ctl (s.interest ep) del hfd fd w x := by
  rw [hostReg_of_some (by rw [kqueueCtl_fds]; exact h)]
  simp [CoexistState.kqueueCtl, h]

theorem kqueueCtl_of_none (h : hostEpOf s.fds kq = none) (ctl : HostCtlEnv) (del : Bool)
    (hfd fd : ℤ) (w : Bool) : s.kqueueCtl kq ctl del hfd fd w = s := by
  simp [CoexistState.kqueueCtl, h]

theorem hostReg_kqueueCtl_ne (hx : x ≠ hfd) (ctl : HostCtlEnv) (del : Bool) (fd : ℤ) (w : Bool) :
    hostReg (s.kqueueCtl kq ctl del hfd fd w) kq x = hostReg s kq x := by
  cases h : hostEpOf s.fds kq with
  | none => rw [kqueueCtl_of_none h]
  | some ep => rw [hostReg_kqueueCtl h, ffHostKqueueCtl_ne hx, hostReg_of_some h]

/-- A change leaves the registrations of other host descriptors as they are. -/
theorem hostReg_change_ne (hhfd : hostFdOf s.fds (fdOf kev.ident) = some hfd) (hx : x ≠ hfd) :
    hostReg (ffKeventHostChange s kq kev.raw env).1 kq x = hostReg s kq x := by
  have hident : hostFdOf s.fds (fdOf kev.raw.ident) = some hfd := hhfd
  simp only [ffKeventHostChange, hident]
  split
  · exact hostReg_kqueueCtl_ne hx _ _ _ _
  · split
    · exact (hostReg_kqueueCtl_ne hx _ _ _ _).trans (hostReg_createHostEp s kq _ x)
    · rfl

/-- A change of a descriptor without a kernel side changes no registration. -/
theorem hostReg_change_of_none (hhfd : hostFdOf s.fds (fdOf kev.ident) = none) :
    (ffKeventHostChange s kq kev.raw env).1 = s := by
  have hident : hostFdOf s.fds (fdOf kev.raw.ident) = none := hhfd
  simp only [ffKeventHostChange, hident]

/-- A change with `EV_DELETE` takes the registration away.
SOURCE: lib/ff_host_interface.c:430-431 -/
theorem hostReg_removed (hhfd : hostFdOf s.fds (fdOf kev.ident) = some hfd)
    (h : HostRemoves kev env) :
    hostReg (ffKeventHostChange s kq kev.raw env).1 kq hfd = none := by
  have hident : hostFdOf s.fds (fdOf kev.raw.ident) = some hfd := hhfd
  have hdel : kev.raw.flags.EV_DELETE = true := h.1
  simp only [ffKeventHostChange, hident, hdel, if_true]
  cases hep : hostEpOf s.fds kq with
  | none => rw [kqueueCtl_of_none hep, hostReg_of_none hep]
  | some ep => rw [hostReg_kqueueCtl hep, ffHostKqueueCtl_del h.2]

/-- A change with `EV_ADD` or `EV_ENABLE` replaces the registration.
SOURCE: lib/ff_host_interface.c:428-435 -/
theorem hostReg_replaced (hhfd : hostFdOf s.fds (fdOf kev.ident) = some hfd)
    (h : HostReplaces s kq hfd kev env) :
    hostReg (ffKeventHostChange s kq kev.raw env).1 kq hfd =
      some ⟨directionBit kev.filter, fdOf kev.ident⟩ := by
  obtain ⟨hdel, hadd, hep, hctl, hinsert⟩ := h
  have hident : hostFdOf s.fds (fdOf kev.raw.ident) = some hfd := hhfd
  have hdel' : kev.raw.flags.EV_DELETE = false := hdel
  have hadd' : (kev.raw.flags.EV_ADD || kev.raw.flags.EV_ENABLE) = true := by
    simpa [Kevent.raw] using hadd
  obtain ⟨ep, hep⟩ := Option.isSome_iff_exists.mp ((createHostEp_isSome s kq env.create).mpr hep)
  have hreg : (s.createHostEp kq env.create).interest ep hfd = hostReg s kq hfd := by
    rw [← hostReg_of_some hep, hostReg_createHostEp]
  simp only [ffKeventHostChange, hident, hdel', hadd', if_true, Bool.false_eq_true, if_false]
  rw [hostReg_kqueueCtl hep, ffHostKqueueCtl_add hctl (fun hnone => hinsert (hreg ▸ hnone))]
  cases hf : kev.filter <;> simp [wantedEvent, directionBit, Kevent.raw, EvFilter.number, hf,
    EVFILT_READ, EVFILT_WRITE]

/-- Any other change leaves the registration. -/
theorem hostReg_kept (hhfd : hostFdOf s.fds (fdOf kev.ident) = some hfd)
    (hremoves : ¬ HostRemoves kev env) (hreplaces : ¬ HostReplaces s kq hfd kev env) :
    hostReg (ffKeventHostChange s kq kev.raw env).1 kq hfd = hostReg s kq hfd := by
  have hident : hostFdOf s.fds (fdOf kev.raw.ident) = some hfd := hhfd
  simp only [ffKeventHostChange, hident]
  split
  · rename_i hdel
    cases hctl : env.ctl.fd with
    | none => exact absurd ⟨hdel, hctl⟩ hremoves
    | some e =>
      cases hep : hostEpOf s.fds kq with
      | none => rw [kqueueCtl_of_none hep]
      | some ep => rw [hostReg_kqueueCtl hep, ffHostKqueueCtl_refused hctl, hostReg_of_some hep]
  · rename_i hdel
    split
    · rename_i hadd
      cases hep : hostEpOf (s.createHostEp kq env.create).fds kq with
      | none => rw [kqueueCtl_of_none hep, hostReg_createHostEp]
      | some ep =>
        have hreg : (s.createHostEp kq env.create).interest ep hfd = hostReg s kq hfd := by
          rw [← hostReg_of_some hep, hostReg_createHostEp]
        have hpair := (createHostEp_isSome s kq env.create).mp (by simp [hep])
        rw [hostReg_kqueueCtl hep]
        cases hctl : env.ctl.fd with
        | some e => rw [ffHostKqueueCtl_refused hctl, hreg]
        | none =>
          -- the host epoll is there and accepts the descriptor: only a new registration can fail
          cases hinsert : env.ctl.insert with
          | none =>
            refine absurd ⟨?_, ?_, hpair, hctl, fun _ => hinsert⟩ hreplaces
            · simpa [Kevent.raw] using hdel
            · simpa [Kevent.raw] using hadd
          | some e =>
            cases hold : hostReg s kq hfd with
            | none =>
              rw [ffHostKqueueCtl_not_inserted hctl (hreg.trans hold) hinsert, hreg, hold]
            | some ev =>
              refine absurd ⟨?_, ?_, hpair, hctl, fun hnone => ?_⟩ hreplaces
              · simpa [Kevent.raw] using hdel
              · simpa [Kevent.raw] using hadd
              · rw [hold] at hnone
                cases hnone
    · rfl

end Change

/-! ## Runs -/

/-- The two kernels, and the filters of the kqueue as the changes leave them. -/
structure HostRun where
  s : CoexistState
  knotes : KnoteTable := fun _ _ => none

/-- A change of `ff_kevent`, with what it meets in the two kernels, or a poll of the host epoll. -/
inductive HostStep where
  | change (kev : Kevent) (renv : RegisterEnv) (env : HostEnv)
  | poll (ready : Option (List HostEvent)) (nevents : ℕ)

/-- The filters after a change: one that the kqueue refuses leaves them as they are. -/
def registerChange (renv : RegisterEnv) (knotes : KnoteTable) (kev : Kevent) : KnoteTable :=
  match kqueueRegister renv knotes kev with
  | .ok knotes' => knotes'
  | .error _ => knotes

def HostRun.step (kq : ℤ) (t : HostRun) : HostStep → HostRun
  | .change kev renv env =>
    ⟨(ffKeventHostChange t.s kq kev.raw env).1, registerChange renv t.knotes kev⟩
  | .poll _ _ => t

/-- The registrations of the descriptors with a kernel side mirror their filters. -/
def AllMirrored (kq : ℤ) (fds : Set (BitVec 64)) (t : HostRun) : Prop :=
  ∀ ident ∈ fds, ∀ hfd, hostFdOf t.s.fds (fdOf ident) = some hfd →
    Mirrors (hostReg t.s kq hfd) (active t.knotes ident)

/-- What a poll takes from the host epoll. -/
def polled (ready : Option (List HostEvent)) (nevents : ℕ) : List HostEvent :=
  (ready.getD []).take nevents

/-- A report is one of an error or of the end of a connection. -/
def isEnd (ev : HostEvent) : Bool := hasBit ev.events (EPOLLHUP ||| EPOLLERR)

/-- A report makes a filter ready: its direction is ready, or the filter is active and the connection at
its end. -/
def FilterReady (knotes : KnoteTable) (ev : HostEvent) (f : EvFilter) : Prop :=
  hasBit ev.events (directionBit f) = true ∨
    isEnd ev = true ∧ active knotes (BitVec.ofInt 64 ev.fd) f = true

/-- What a step has to do: after a change the registrations mirror the filters, and of a poll there is a
kevent for each filter that is ready. -/
def StepMirrors (kq : ℤ) (fds : Set (BitVec 64)) (t : HostRun) : HostStep → Prop
  | .change kev renv env => AllMirrored kq fds (t.step kq (.change kev renv env))
  | .poll ready nevents =>
    ∀ ev ∈ polled ready nevents, ∀ f, FilterReady t.knotes ev f →
      ∃ kev ∈ ffKeventHostWait ready nevents,
        kev.ident = BitVec.ofInt 64 ev.fd ∧ kev.filter = f.number

/-! ## The condition -/

/-- The other filter of a descriptor. -/
def otherFilter : EvFilter → EvFilter
  | .read => .write
  | .write => .read

/-- When a change keeps the mirror.  Where the registration is taken away, no filter is active then;
where it is replaced, the filter of the change is, and the other one is not; and where the host is not
told, the filter stays what it was. -/
structure ChangeFits (kq hfd : ℤ) (t : HostRun) (kev : Kevent) (renv : RegisterEnv) (env : HostEnv) :
    Prop where
  removed : HostRemoves kev env →
    active (registerChange renv t.knotes kev) kev.ident kev.filter = false ∧
      active t.knotes kev.ident (otherFilter kev.filter) = false
  replaced : HostReplaces t.s kq hfd kev env →
    active (registerChange renv t.knotes kev) kev.ident kev.filter = true ∧
      active t.knotes kev.ident (otherFilter kev.filter) = false
  kept : ¬ HostRemoves kev env → ¬ HostReplaces t.s kq hfd kev env →
    active (registerChange renv t.knotes kev) kev.ident kev.filter =
      active t.knotes kev.ident kev.filter

/-- When the one kevent of a report is enough: a report of `EPOLLOUT` is not one of `EPOLLIN` too, and
one of the end of a connection is not for another active filter. -/
structure ReportFits (knotes : KnoteTable) (ev : HostEvent) : Prop where
  write : hasBit ev.events EPOLLOUT = true →
    hasBit ev.events EPOLLIN = false ∧
      (isEnd ev = true → active knotes (BitVec.ofInt 64 ev.fd) .read = false)
  read : hasBit ev.events EPOLLOUT = false → isEnd ev = true →
    active knotes (BitVec.ofInt 64 ev.fd) .write = false

def StepFits (kq : ℤ) (t : HostRun) : HostStep → Prop
  | .change kev renv env =>
    ∀ hfd, hostFdOf t.s.fds (fdOf kev.ident) = some hfd → ChangeFits kq hfd t kev renv env
  | .poll ready nevents => ∀ ev ∈ polled ready nevents, ReportFits t.knotes ev

/-- The changes are of the descriptors in question, and a poll reports no descriptor twice. -/
def StepOf (fds : Set (BitVec 64)) : HostStep → Prop
  | .change kev _ _ => kev.ident ∈ fds
  | .poll ready _ => ((ready.getD []).map fun ev => BitVec.ofInt 64 ev.fd).Nodup

/-! ## Steps -/

section Step

variable {kq hfd : ℤ} {fds : Set (BitVec 64)} {t : HostRun} {kev : Kevent} {renv : RegisterEnv}
  {env : HostEnv}

theorem eq_or_eq_otherFilter (f g : EvFilter) : g = f ∨ g = otherFilter f := by
  cases f <;> cases g <;> simp [otherFilter]

theorem otherFilter_ne (f : EvFilter) : otherFilter f ≠ f := by
  cases f <;> simp [otherFilter]

theorem active_registerChange_frame (renv : RegisterEnv) (knotes : KnoteTable) {i : BitVec 64}
    (hi : i ≠ kev.ident) :
    active (registerChange renv knotes kev) i = active knotes i := by
  funext f
  unfold registerChange
  split
  · rename_i knotes' h
    rw [active, active, kqueueRegister_frame h hi]
  · rfl

theorem active_registerChange_other (renv : RegisterEnv) (knotes : KnoteTable) (kev : Kevent) :
    active (registerChange renv knotes kev) kev.ident (otherFilter kev.filter) =
      active knotes kev.ident (otherFilter kev.filter) := by
  unfold registerChange
  split
  · rename_i knotes' h
    rw [active, active, kqueueRegister_other h (otherFilter_ne _)]
  · rfl

/-- Two states of the filters of a descriptor are the same if they agree on both. -/
theorem forall_filter_iff {p : EvFilter → Prop} (f : EvFilter) :
    (∀ g, p g) ↔ p f ∧ p (otherFilter f) := by
  constructor
  · exact fun h => ⟨h f, h _⟩
  · rintro ⟨hf, hother⟩ g
    rcases eq_or_eq_otherFilter f g with rfl | rfl
    · exact hf
    · exact hother

/-- After a change, the registration of its descriptor mirrors the filters exactly if the
change fits. -/
theorem mirrors_change_iff (hhfd : hostFdOf t.s.fds (fdOf kev.ident) = some hfd)
    (h : Mirrors (hostReg t.s kq hfd) (active t.knotes kev.ident)) :
    Mirrors (hostReg (ffKeventHostChange t.s kq kev.raw env).1 kq hfd)
        (active (registerChange renv t.knotes kev) kev.ident) ↔
      ChangeFits kq hfd t kev renv env := by
  have hother := active_registerChange_other renv t.knotes kev
  by_cases hremoves : HostRemoves kev env
  · have hnot : ¬ HostReplaces t.s kq hfd kev env := by
      rintro ⟨hdel, -⟩
      rw [hremoves.1] at hdel
      cases hdel
    rw [hostReg_removed hhfd hremoves, mirrors_none, forall_filter_iff kev.filter, hother]
    exact ⟨fun hfit => ⟨fun _ => hfit, fun hr => absurd hr hnot, fun hr => absurd hremoves hr⟩,
      fun hfit => hfit.removed hremoves⟩
  · by_cases hreplaces : HostReplaces t.s kq hfd kev env
    · rw [hostReg_replaced hhfd hreplaces, mirrors_one, forall_filter_iff kev.filter, hother]
      simp only [decide_true, decide_eq_false (otherFilter_ne kev.filter)]
      exact ⟨fun hfit => ⟨fun hr => absurd hr hremoves, fun _ => hfit, fun _ hr => absurd hreplaces hr⟩,
        fun hfit => hfit.replaced hreplaces⟩
    · rw [hostReg_kept hhfd hremoves hreplaces]
      constructor
      · intro hmirrors
        refine ⟨fun hr => absurd hr hremoves, fun hr => absurd hr hreplaces, fun _ _ => ?_⟩
        rw [h.unique hmirrors]
      · intro hfit
        have hsame : active (registerChange renv t.knotes kev) kev.ident = active t.knotes kev.ident :=
          funext ((forall_filter_iff kev.filter).mpr ⟨hfit.kept hremoves hreplaces, hother⟩)
        rw [hsame]
        exact h

/-- After a change all registrations mirror the filters exactly if the change fits. -/
theorem allMirrored_change_iff (h : AllMirrored kq fds t)
    (hdistinct : ∀ i ∈ fds, ∀ j ∈ fds, ∀ hfd, hostFdOf t.s.fds (fdOf i) = some hfd →
      hostFdOf t.s.fds (fdOf j) = some hfd → i = j) (hmem : kev.ident ∈ fds) :
    AllMirrored kq fds (t.step kq (.change kev renv env)) ↔
      ∀ hfd, hostFdOf t.s.fds (fdOf kev.ident) = some hfd → ChangeFits kq hfd t kev renv env := by
  have hnative := hostFdOf_congr (ffKeventHostChange_native t.s kq kev.raw env)
  constructor
  · intro hafter hfd hhfd
    refine (mirrors_change_iff hhfd (h kev.ident hmem hfd hhfd)).mp ?_
    exact hafter kev.ident hmem hfd ((hnative _).trans hhfd)
  · intro hfits ident hident x hx
    have hx' : hostFdOf t.s.fds (fdOf ident) = some x := (hnative _).symm.trans hx
    by_cases heq : ident = kev.ident
    · subst heq
      exact (mirrors_change_iff hx' (h _ hmem x hx')).mpr (hfits x hx')
    · -- a change of another descriptor: neither the registration nor the filters are touched
      have hreg : hostReg (ffKeventHostChange t.s kq kev.raw env).1 kq x = hostReg t.s kq x := by
        cases hhfd : hostFdOf t.s.fds (fdOf kev.ident) with
        | none => rw [hostReg_change_of_none hhfd]
        | some hfd =>
          refine hostReg_change_ne hhfd fun hsame => heq ?_
          exact hdistinct ident hident kev.ident hmem x hx' (hsame ▸ hhfd)
      have hfilters := active_registerChange_frame renv t.knotes heq
      simp only [HostRun.step, hreg, hfilters]
      exact h ident hident x hx'

/-- The filter for which a report becomes a kevent.
SOURCE: lib/ff_syscall_wrapper.c:2086 -/
def reportFilter (ev : HostEvent) : EvFilter := if hasBit ev.events EPOLLOUT then .write else .read

theorem number_injective : Function.Injective EvFilter.number := by
  intro f g h
  cases f <;> cases g <;> simp_all [EvFilter.number, EVFILT_READ, EVFILT_WRITE]

/-- There is a kevent for a filter of a report exactly if it is the one that is chosen. -/
theorem exists_kevent_iff {ready : Option (List HostEvent)} {nevents : ℕ}
    (hnodup : ((ready.getD []).map fun ev => BitVec.ofInt 64 ev.fd).Nodup) {ev : HostEvent}
    (hev : ev ∈ polled ready nevents) (f : EvFilter) :
    (∃ kev ∈ ffKeventHostWait ready nevents, kev.ident = BitVec.ofInt 64 ev.fd ∧
      kev.filter = f.number) ↔ f = reportFilter ev := by
  have hfilter (e : HostEvent) : (if hasBit e.events EPOLLOUT then EVFILT_WRITE else EVFILT_READ) =
      (reportFilter e).number := by
    unfold reportFilter
    split
    · rfl
    · rfl
  simp only [ffKeventHostWait, ffHostKqueuePoll, List.map_map, List.mem_map, Function.comp_apply]
  constructor
  · rintro ⟨kev, ⟨e, he, rfl⟩, hident, hf⟩
    have hsame : e = ev := List.inj_on_of_nodup_map hnodup (List.mem_of_mem_take he)
      (List.mem_of_mem_take hev) hident
    rw [hsame] at hf
    exact number_injective (hf.symm.trans (hfilter ev))
  · rintro rfl
    exact ⟨_, ⟨ev, hev, rfl⟩, rfl, hfilter ev⟩

/-- The filters that a report makes ready are only the one that is chosen exactly if the
report fits. -/
theorem reportFits_iff (knotes : KnoteTable) (ev : HostEvent) :
    (∀ f, FilterReady knotes ev f → f = reportFilter ev) ↔ ReportFits knotes ev := by
  have hread : directionBit .read = EPOLLIN := rfl
  have hwrite : directionBit .write = EPOLLOUT := rfl
  rw [forall_filter_iff .read]
  simp only [FilterReady, reportFilter, otherFilter, hread, hwrite]
  constructor
  · intro h
    refine ⟨fun hout => ⟨?_, fun hend => ?_⟩, fun hout hend => ?_⟩
    · by_contra hin
      simpa [hout] using h.1 (.inl (by simpa using hin))
    · by_contra hact
      simpa [hout] using h.1 (.inr ⟨hend, by simpa using hact⟩)
    · by_contra hact
      simpa [hout] using h.2 (.inr ⟨hend, by simpa using hact⟩)
  · intro h
    cases hout : hasBit ev.events EPOLLOUT with
    | true =>
      obtain ⟨hin, hend⟩ := h.write hout
      refine ⟨?_, fun _ => rfl⟩
      rintro (hin' | ⟨hend', hact⟩)
      · rw [hin] at hin'
        cases hin'
      · rw [hend hend'] at hact
        cases hact
    | false =>
      refine ⟨fun _ => rfl, ?_⟩
      rintro (hout' | ⟨hend, hact⟩)
      · cases hout'
      · rw [h.read hout hend] at hact
        cases hact

end Step

/-- From a kqueue without filters on, whose host epoll, if it has one, has no registrations: after every
change the registrations of the descriptors `fds` mirror their filters, and every poll makes a kevent for
each ready filter, exactly if every step fits.
SOURCE: lib/ff_host_interface.c:423-458, lib/ff_syscall_wrapper.c:2050-2091 -/
theorem hostRun_mirrors_iff (kq : ℤ) (fds : Set (BitVec 64)) (s : CoexistState)
    (hempty : ∀ hfd, hostReg s kq hfd = none)
    (hdistinct : ∀ i ∈ fds, ∀ j ∈ fds, ∀ hfd, hostFdOf s.fds (fdOf i) = some hfd →
      hostFdOf s.fds (fdOf j) = some hfd → i = j)
    (steps : List HostStep) (hsteps : ∀ a ∈ steps, StepOf fds a) :
    AllSteps (HostRun.step kq) (StepMirrors kq fds) { s := s } steps ↔
      AllSteps (HostRun.step kq) (StepFits kq) { s := s } steps := by
  have hstart : AllMirrored kq fds { s := s } := by
    intro ident _ hfd _
    simp only [hempty, mirrors_none]
    exact fun f => rfl
  have hchange : ∀ t : HostRun, (AllMirrored kq fds t ∧ t.s.fds.native_fd_map = s.fds.native_fd_map) →
      ∀ kev renv env, kev.ident ∈ fds →
        (AllMirrored kq fds (t.step kq (.change kev renv env)) ↔ StepFits kq t (.change kev renv env)) := by
    intro t ht kev renv env hmem
    refine allMirrored_change_iff ht.1 ?_ hmem
    simpa only [hostFdOf_congr ht.2] using hdistinct
  refine allSteps_iff
    (I := fun t => AllMirrored kq fds t ∧ t.s.fds.native_fd_map = s.fds.native_fd_map)
    (D := StepOf fds) ?_ ?_ ⟨hstart, rfl⟩ hsteps
  · intro t a ht ha hfits
    cases a with
    | change kev renv env =>
      refine ⟨(hchange t ht kev renv env ha).mpr hfits, ?_⟩
      exact (ffKeventHostChange_native t.s kq kev.raw env).trans ht.2
    | poll ready nevents => exact ht
  · intro t a ht ha
    cases a with
    | change kev renv env => exact hchange t ht kev renv env ha
    | poll ready nevents =>
      simp only [StepMirrors, StepFits]
      refine forall_congr' fun ev => forall_congr' fun hev => ?_
      rw [← reportFits_iff]
      exact forall_congr' fun f => imp_congr_right fun _ => exists_kevent_iff ha hev f

/-- A process with the kqueue 3 and the kernel socket of the number `0x40000007`, host descriptor 7. -/
def kernelSocketState : CoexistState where
  fds := { fdStart (fun h => h = 7) with files := fun fd => if fd = 3 then some 0 else none }
  interest _ _ := none

/-- A change of the filter `f` of that socket; the host epoll is made as descriptor 9. -/
def socketChange (f : EvFilter) (flags : EvFlags) : HostStep :=
  .change { ident := 0x40000007, filter := f, flags := flags } {} { create := some 9 }

/-- One filter is added, its event taken, and the filter deleted. -/
def oneFilterSteps : List HostStep :=
  [socketChange .read { EV_ADD := true }, .poll (some [⟨EPOLLIN, 0x40000007⟩]) 8,
    socketChange .read { EV_DELETE := true }]

theorem oneFilterSteps_mirror :
    AllSteps (HostRun.step 3) (StepMirrors 3 {0x40000007}) { s := kernelSocketState }
      oneFilterSteps := by
  refine (hostRun_mirrors_iff 3 {0x40000007} kernelSocketState (fun _ => rfl) ?_ oneFilterSteps ?_).mpr
    ⟨?_, ?_, ?_, trivial⟩
  · intro i hi j hj hfd _ _
    rw [Set.mem_singleton_iff.mp hi, Set.mem_singleton_iff.mp hj]
  · intro a ha
    simp only [oneFilterSteps, socketChange, List.mem_cons, List.not_mem_nil, or_false] at ha
    rcases ha with rfl | rfl | rfl
    · exact Set.mem_singleton _
    · exact List.nodup_singleton _
    · exact Set.mem_singleton _
  · intro hfd _
    refine ⟨fun h => absurd h.1 (by decide), fun _ => by decide, fun _ h => absurd ?_ h⟩
    exact ⟨rfl, .inl rfl, .inr ⟨by decide, 9, rfl, by decide, by decide⟩, rfl, fun _ => rfl⟩
  · intro ev hev
    have heq : ev = ⟨EPOLLIN, 0x40000007⟩ := List.mem_singleton.mp hev
    subst heq
    exact ⟨fun h => absurd h (by decide), fun _ h => absurd h (by decide)⟩
  · intro hfd _
    exact ⟨fun _ => by decide, fun h => absurd h.1 (by decide), fun h => absurd ⟨rfl, rfl⟩ h⟩

/-- The second filter takes the registration of the first.
SOURCE: lib/ff_host_interface.c:428-435 -/
theorem twoFilters_not_mirrored :
    ¬ AllSteps (HostRun.step 3) (StepMirrors 3 {0x40000007}) { s := kernelSocketState }
      [socketChange .read { EV_ADD := true }, socketChange .write { EV_ADD := true }] := by
  rintro ⟨-, hboth, -⟩
  have hmirrors := hboth 0x40000007 rfl 7 (by decide)
  obtain ⟨ev, hev, hbit⟩ := (hmirrors.direction .read).mpr (by decide)
  have hreg : some (⟨EPOLLOUT, 0x40000007⟩ : HostEvent) = some ev := by
    rw [← hev]
    decide
  cases hreg
  exact absurd hbit (by decide)

end FStack.Analysis
