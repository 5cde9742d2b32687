import FStack.Model.NginxDescriptor
import FStack.Analysis.KeventIdents

/-!
# One space for two kinds of descriptors

A value below `ngx_max_sockets` has to be a descriptor of the kernel, and every other value one of F-Stack, with
`ngx_max_sockets` added.  `isFstackFd` draws the line there.  `restoreFstackFd` draws it one value later, so the
descriptor 0 of F-Stack is not restored; and `kevent`, which writes the descriptors of F-Stack into the changes of the
application, restores them once more when it is given the same changes again.  `partition_right_iff` says which calls
reach what they are meant for.
-/

set_option autoImplicit false

namespace FStack.Analysis

open FStack.Model FStack.Prelude

variable {fd made : ℤ} {kev : HookKevent Unit}
variable {d : NgxDescriptor} {sockfd : ℤ} {i : ℕ} {call : NgxCall}

/-! ## What the calls have to do -/

/-- The value that stands for a descriptor. -/
def valueOf (ff : NgxFfModule) : NgxDescriptor → ℤ
  | .fstack fd => fd + ff.ngx_max_sockets
  | .kernel fd => fd

/-- The descriptors that F-Stack and the kernel give out. -/
def GivenOut (ff : NgxFfModule) (ff_getmaxfd : BitVec 32) : NgxDescriptor → Prop
  | .fstack fd => 0 ≤ fd ∧ fd ≤ ff_getmaxfd.toInt
  | .kernel fd => 0 ≤ fd ∧ fd < ff.ngx_max_sockets

/-- The application calls with values that it holds, and writes changes about descriptors of F-Stack. -/
def NgxCallIssued (ff_getmaxfd : BitVec 32) (s : NgxApp) : NgxCall → Prop
  | .socket domain type made => made = -1 ∨ GivenOut s.ff ff_getmaxfd (s.ff.socket domain type made).1
  | .accept sockfd made =>
    (∃ d, s.held sockfd = some d) ∧ (made = -1 ∨ GivenOut s.ff ff_getmaxfd (s.ff.accept sockfd made).1)
  | .accept4 sockfd made =>
    (∃ d, s.held sockfd = some d) ∧ (made = -1 ∨ GivenOut s.ff ff_getmaxfd (s.ff.accept4 sockfd made).1)
  | .hooked _ sockfd => ∃ d, s.held sockfd = some d
  | .change _ kev =>
    isFdFilter kev.filter = true → ∃ value fd, kev.ident = intToIdent value ∧ s.held value = some (.fstack fd)
  | .kevent _ _ => True

/-- A call reaches the descriptor that its value was made from, what it returns is the value of the descriptor that it
has made, and the changes that are passed on name the descriptors that were meant. -/
def NgxCallRight (s : NgxApp) : NgxCall → Prop
  | .socket domain type made =>
    made ≠ -1 → (s.ff.socket domain type made).2 = valueOf s.ff (s.ff.socket domain type made).1
  | .accept sockfd made =>
    s.held sockfd = some (s.ff.reached sockfd) ∧
      (made ≠ -1 → (s.ff.accept sockfd made).2 = valueOf s.ff (s.ff.accept sockfd made).1)
  | .accept4 sockfd made =>
    s.held sockfd = some (s.ff.reached sockfd) ∧
      (made ≠ -1 → (s.ff.accept4 sockfd made).2 = valueOf s.ff (s.ff.accept4 sockfd made).1)
  | .hooked f sockfd => s.held sockfd = some (s.ff.hooked f sockfd).2
  | .change _ _ => True
  | .kevent changelist nchanges => ∀ i fd, changelist ≤ i → i < changelist + nchanges → s.meant i = some fd →
      ((s.step (.kevent changelist nchanges)).changes i).ident = intToIdent fd

/-- No call is about the descriptor 0 of F-Stack, and a change that has been passed on is passed on again only if its
descriptor is at most `ngx_max_sockets`. -/
def NgxCallSafe (s : NgxApp) : NgxCall → Prop
  | .socket _ _ _ => True
  | .accept sockfd _ => s.held sockfd ≠ some (.fstack 0)
  | .accept4 sockfd _ => s.held sockfd ≠ some (.fstack 0)
  | .hooked _ sockfd => s.held sockfd ≠ some (.fstack 0)
  | .change _ _ => True
  | .kevent changelist nchanges => ∀ i fd, changelist ≤ i → i < changelist + nchanges → s.meant i = some fd →
      fd ≠ 0 ∧ ((s.changes i).ident = intToIdent (valueOf s.ff (.fstack fd)) ∨ fd ≤ s.ff.ngx_max_sockets)

/-! ## Values -/

/-- A module that `ff_mod_init` has accepted. -/
structure Accepted (ff : NgxFfModule) (ff_getmaxfd : BitVec 32) : Prop where
  inited : ff.inited = true
  pos : 1 ≤ ff.ngx_max_sockets
  lt : ff.ngx_max_sockets < 2 ^ 31
  fits : ff.ngx_max_sockets + ff_getmaxfd.toInt < 2 ^ 31

theorem accepted_of_ffModInit {ngx_max_sockets rc : ℤ} {ff_getmaxfd : BitVec 32} {ff : NgxFfModule}
    (hpos : 1 ≤ ngx_max_sockets) (hinit : ffModInit ngx_max_sockets rc ff_getmaxfd = some (0, ff)) :
    Accepted ff ff_getmaxfd := by
  unfold ffModInit at hinit
  by_cases hrc : rc = 0
  · rw [if_pos hrc] at hinit
    dsimp only at hinit
    by_cases hsum : (2 : ℤ) ^ 63 ≤ ngx_max_sockets + ff_getmaxfd.toNat
    · rw [if_pos hsum] at hinit
      exact absurd hinit (by simp)
    · rw [if_neg hsum, Option.some.injEq, Prod.mk.injEq] at hinit
      obtain ⟨hret, rfl⟩ := hinit
      have hfits : ¬ (2 : ℤ) ^ 31 - 1 < ngx_max_sockets + ff_getmaxfd.toNat := by
        intro hlarge
        rw [if_pos hlarge] at hret
        exact absurd hret (by decide)
      have hle : ff_getmaxfd.toInt ≤ ff_getmaxfd.toNat := by
        rw [BitVec.toInt_eq_toNat_cond]
        split <;> omega
      exact ⟨rfl, hpos, by show ngx_max_sockets < _; omega, by show ngx_max_sockets + _ < _; omega⟩
  · rw [if_neg hrc, Option.some.injEq, Prod.mk.injEq] at hinit
    exact absurd hinit.1 hrc

section Values

variable {ff : NgxFfModule} {ff_getmaxfd : BitVec 32}

theorem isFstackFd_iff (hff : Accepted ff ff_getmaxfd) (sockfd : ℤ) :
    ff.isFstackFd sockfd = true ↔ ff.ngx_max_sockets ≤ sockfd := by
  unfold NgxFfModule.isFstackFd
  rw [hff.inited, if_neg (by decide), decide_eq_true_iff]

theorem GivenOut.valueOf_lt (hff : Accepted ff ff_getmaxfd) (hd : GivenOut ff ff_getmaxfd d) :
    0 ≤ valueOf ff d ∧ valueOf ff d < 2 ^ 31 := by
  have hpos := hff.pos
  have hlt := hff.lt
  have hfits := hff.fits
  cases d with
  | fstack fd =>
    obtain ⟨hlow, hhigh⟩ := hd
    show 0 ≤ fd + _ ∧ fd + _ < _
    omega
  | kernel fd =>
    obtain ⟨hlow, hhigh⟩ := hd
    exact ⟨hlow, hhigh.trans hlt⟩

/-- The value of a descriptor of F-Stack is an `int`. -/
theorem convertFstackFd_eq (hff : Accepted ff ff_getmaxfd) (hd : GivenOut ff ff_getmaxfd (.fstack fd)) :
    ff.convertFstackFd fd = valueOf ff (.fstack fd) := by
  have hvalue := hd.valueOf_lt hff
  exact int32_of_range (by show -2 ^ 31 ≤ valueOf ff (.fstack fd); omega) hvalue.2

/-- A value reaches the descriptor that it stands for, but for the first one of F-Stack. -/
theorem reached_valueOf_iff (hff : Accepted ff ff_getmaxfd) (hd : GivenOut ff ff_getmaxfd d) :
    ff.reached (valueOf ff d) = d ↔ d ≠ .fstack 0 := by
  have hpos := hff.pos
  have hfits := hff.fits
  unfold NgxFfModule.reached
  cases d with
  | kernel fd =>
    have hkernel : ¬ ff.isFstackFd (valueOf ff (.kernel fd)) = true :=
      fun h => absurd ((isFstackFd_iff hff _).mp h) (not_le.mpr hd.2)
    rw [if_neg hkernel]
    exact iff_of_true rfl NgxDescriptor.noConfusion
  | fstack fd =>
    obtain ⟨hlow, hhigh⟩ := hd
    have hfstack : ff.isFstackFd (valueOf ff (.fstack fd)) = true :=
      (isFstackFd_iff hff _).mpr (by show _ ≤ fd + _; omega)
    rw [if_pos hfstack, Ne, NgxDescriptor.fstack.injEq, NgxDescriptor.fstack.injEq, NgxFfModule.restoreFstackFd]
    show (if fd + ff.ngx_max_sockets ≤ _ then fd + ff.ngx_max_sockets else int32 (fd + _ - _)) = fd ↔ _
    rw [add_sub_cancel_right, int32_of_range (by omega) (by omega)]
    split <;> omega

/-- INTERNAL: a change whose identifier is an `int`. -/
theorem keventChange_ident {value : ℤ} (hfilter : isFdFilter kev.filter = true) (hident : kev.ident = intToIdent value)
    (hlow : 0 ≤ value) (hhigh : value < 2 ^ 31) :
    (ff.keventChange kev).ident = intToIdent (ff.restoreFstackFd value) := by
  rw [NgxFfModule.keventChange, if_pos hfilter, hident, identToInt_intToIdent, int32_of_range (by omega) hhigh]

/-- INTERNAL: different numbers are different identifiers. -/
theorem intToIdent_inj {a b : ℤ} (hA : 0 ≤ a) (ha : a < 2 ^ 31) (hB : 0 ≤ b) (hb : b < 2 ^ 31) :
    intToIdent a = intToIdent b ↔ a = b := by
  constructor
  · intro h
    have hint := congrArg identToInt h
    rwa [identToInt_intToIdent, identToInt_intToIdent, int32_of_range (by omega) ha, int32_of_range (by omega) hb] at hint
  · exact congrArg _

/-- The value of a descriptor is made the descriptor, but for the first one. -/
theorem keventChange_value_iff (hff : Accepted ff ff_getmaxfd) (hfilter : isFdFilter kev.filter = true)
    (hd : GivenOut ff ff_getmaxfd (.fstack fd)) (hident : kev.ident = intToIdent (valueOf ff (.fstack fd))) :
    (ff.keventChange kev).ident = intToIdent fd ↔ fd ≠ 0 := by
  have hpos := hff.pos
  have hlt := hff.lt
  obtain ⟨hlow, hhigh⟩ := hd.valueOf_lt hff
  obtain ⟨hfd, hmax⟩ := hd
  have hfits := hff.fits
  rw [keventChange_ident hfilter hident hlow hhigh, NgxFfModule.restoreFstackFd]
  show intToIdent (if fd + ff.ngx_max_sockets ≤ _ then fd + ff.ngx_max_sockets else int32 (fd + _ - _)) = _ ↔ _
  rw [add_sub_cancel_right, int32_of_range (by omega) (by omega)]
  split
  · rw [intToIdent_inj (by omega) (by omega) hfd (by omega)]
    omega
  · rw [intToIdent_inj hfd (by omega) hfd (by omega)]
    omega

/-- A descriptor stays as it is, if it is not taken for a value. -/
theorem keventChange_again_iff (hff : Accepted ff ff_getmaxfd) (hfilter : isFdFilter kev.filter = true)
    (hd : GivenOut ff ff_getmaxfd (.fstack fd)) (hident : kev.ident = intToIdent fd) :
    (ff.keventChange kev).ident = intToIdent fd ↔ fd ≤ ff.ngx_max_sockets := by
  have hpos := hff.pos
  have hlt := hff.lt
  obtain ⟨hlow, hhigh⟩ := hd
  have hfits := hff.fits
  rw [keventChange_ident hfilter hident hlow (by omega), NgxFfModule.restoreFstackFd]
  split
  · next hle => exact iff_of_true rfl hle
  · next hle =>
    rw [int32_of_range (by omega) (by omega), intToIdent_inj (by omega) (by omega) hlow (by omega)]
    omega

end Values

/-! ## Calls -/

/-- A change is about a descriptor of F-Stack: it has its value, or the descriptor itself. -/
structure Names (ff : NgxFfModule) (ff_getmaxfd : BitVec 32) (kev : HookKevent Unit) (fd : ℤ) : Prop where
  filter : isFdFilter kev.filter = true
  given : GivenOut ff ff_getmaxfd (.fstack fd)
  ident : kev.ident = intToIdent (valueOf ff (.fstack fd)) ∨ fd ≠ 0 ∧ kev.ident = intToIdent fd

/-- What holds between the calls: values stand for the descriptors that they were made from, and changes are about those
that were meant. -/
structure Partitioned (ff_getmaxfd : BitVec 32) (s : NgxApp) : Prop where
  accepted : Accepted s.ff ff_getmaxfd
  held : ∀ value d, s.held value = some d → GivenOut s.ff ff_getmaxfd d ∧ value = valueOf s.ff d
  change : ∀ i fd, s.meant i = some fd → Names s.ff ff_getmaxfd (s.changes i) fd

section Calls

variable {s : NgxApp} {ff_getmaxfd : BitVec 32}

theorem start_partitioned {ff : NgxFfModule} (hff : Accepted ff ff_getmaxfd) (memory : ℕ → HookKevent Unit) :
    Partitioned ff_getmaxfd (NgxApp.start ff memory) where
  accepted := hff
  held := fun _ _ h => absurd h (by simp [NgxApp.start])
  change := fun _ _ h => absurd h (by simp [NgxApp.start])

/-- A value that is held reaches its descriptor, but for the first one of F-Stack. -/
theorem held_reached_iff (h : Partitioned ff_getmaxfd s) (hheld : ∃ d, s.held sockfd = some d) :
    s.held sockfd = some (s.ff.reached sockfd) ↔ s.held sockfd ≠ some (.fstack 0) := by
  obtain ⟨d, hd⟩ := hheld
  obtain ⟨hgiven, rfl⟩ := h.held sockfd d hd
  rw [hd, Option.some.injEq, Ne, Option.some.injEq, eq_comm]
  exact reached_valueOf_iff h.accepted hgiven

/-- A descriptor that is made is held under its value. -/
theorem hold_partitioned (h : Partitioned ff_getmaxfd s) {made : NgxDescriptor × ℤ}
    (hmade : made.2 ≠ -1 → GivenOut s.ff ff_getmaxfd made.1 ∧ made.2 = valueOf s.ff made.1) :
    Partitioned ff_getmaxfd (s.hold made) := by
  unfold NgxApp.hold
  split
  · exact h
  · next hne =>
    refine ⟨h.accepted, ?_, h.change⟩
    intro value d hd
    change Function.update s.held made.2 (some made.1) value = some d at hd
    by_cases hvalue : value = made.2
    · rw [hvalue, Function.update_self, Option.some.injEq] at hd
      rw [hvalue, ← hd]
      exact hmade hne
    · rw [Function.update_of_ne hvalue] at hd
      exact h.held value d hd

/-- INTERNAL: what `socket` and the two functions that accept return for what has been made. -/
theorem made_right (h : Partitioned ff_getmaxfd s) {r : NgxDescriptor × ℤ}
    (hr : r = (.kernel made, made) ∨ r = (.fstack made, if made ≠ -1 then s.ff.convertFstackFd made else made))
    (hissued : made = -1 ∨ GivenOut s.ff ff_getmaxfd r.1) :
    (made ≠ -1 → r.2 = valueOf s.ff r.1) ∧ Partitioned ff_getmaxfd (s.hold r) := by
  have hvalue : made ≠ -1 → GivenOut s.ff ff_getmaxfd r.1 ∧ r.2 = valueOf s.ff r.1 := by
    intro hmade
    have hgiven := hissued.resolve_left hmade
    refine ⟨hgiven, ?_⟩
    rcases hr with rfl | rfl
    · rfl
    · exact (if_pos hmade).trans (convertFstackFd_eq h.accepted hgiven)
  refine ⟨fun hmade => (hvalue hmade).2, hold_partitioned h fun hne => hvalue ?_⟩
  -- A call that fails returns -1 on both sides.
  rintro hfailed
  rcases hr with rfl | rfl
  · exact hne hfailed
  · exact hne ((if_neg (not_not.mpr hfailed)).trans hfailed)

theorem socket_right (h : Partitioned ff_getmaxfd s) {domain : ℤ} {type : BitVec 32}
    (hissued : NgxCallIssued ff_getmaxfd s (.socket domain type made)) :
    NgxCallRight s (.socket domain type made) ∧ Partitioned ff_getmaxfd (s.step (.socket domain type made)) := by
  refine made_right h ?_ hissued
  unfold NgxFfModule.socket
  split
  · exact Or.inl rfl
  split
  · exact Or.inl rfl
  split
  · exact Or.inl rfl
  · exact Or.inr rfl

theorem accept_right (h : Partitioned ff_getmaxfd s) (hissued : NgxCallIssued ff_getmaxfd s (.accept sockfd made)) :
    (NgxCallRight s (.accept sockfd made) ↔ NgxCallSafe s (.accept sockfd made)) ∧
      Partitioned ff_getmaxfd (s.step (.accept sockfd made)) := by
  obtain ⟨hvalue, hnext⟩ : (made ≠ -1 → (s.ff.accept sockfd made).2 = valueOf s.ff (s.ff.accept sockfd made).1) ∧
      Partitioned ff_getmaxfd (s.hold (s.ff.accept sockfd made)) := by
    refine made_right h ?_ hissued.2
    unfold NgxFfModule.accept
    split
    · exact Or.inr rfl
    · exact Or.inl rfl
  exact ⟨(and_iff_left hvalue).trans (held_reached_iff h hissued.1), hnext⟩

theorem hooked_partitioned (h : Partitioned ff_getmaxfd s) (f : HookedFunction) (sockfd : ℤ) :
    Partitioned ff_getmaxfd (s.step (.hooked f sockfd)) := by
  by_cases hclose : f = .close
  · have hstep : s.step (.hooked f sockfd) = { s with held := Function.update s.held sockfd none } := if_pos hclose
    rw [hstep]
    refine ⟨h.accepted, ?_, h.change⟩
    intro value d hd
    change Function.update s.held sockfd none value = some d at hd
    by_cases hvalue : value = sockfd
    · rw [hvalue, Function.update_self] at hd
      exact absurd hd (by simp)
    · rw [Function.update_of_ne hvalue] at hd
      exact h.held value d hd
  · have hstep : s.step (.hooked f sockfd) = s := if_neg hclose
    rwa [hstep]

/-- INTERNAL: what a change is about. -/
theorem meantBy_eq_some (h : s.meantBy kev = some fd) :
    isFdFilter kev.filter = true ∧ s.held (identToInt kev.ident) = some (.fstack fd) := by
  unfold NgxApp.meantBy at h
  split at h
  · next hfilter =>
    split at h
    · next fd' hheld => rw [hheld, Option.some.inj h]; exact ⟨hfilter, rfl⟩
    · exact absurd h (by simp)
  · exact absurd h (by simp)

theorem meantBy_names (h : Partitioned ff_getmaxfd s) (hissued : NgxCallIssued ff_getmaxfd s (.change i kev))
    (hfd : s.meantBy kev = some fd) :
    Names s.ff ff_getmaxfd kev fd := by
  obtain ⟨hfilter, hheld⟩ := meantBy_eq_some hfd
  obtain ⟨hgiven, hvalue⟩ := h.held _ _ hheld
  obtain ⟨value, fd', hident, hheld'⟩ := hissued hfilter
  obtain ⟨hgiven', hvalue'⟩ := h.held _ _ hheld'
  have hrange := hgiven'.valueOf_lt h.accepted
  rw [hident, identToInt_intToIdent, int32_of_range (by omega) (by omega)] at hvalue
  exact ⟨hfilter, hgiven, Or.inl (by rw [hident, hvalue])⟩

theorem change_partitioned (h : Partitioned ff_getmaxfd s) (hissued : NgxCallIssued ff_getmaxfd s (.change i kev)) :
    Partitioned ff_getmaxfd (s.step (.change i kev)) := by
  refine ⟨h.accepted, h.held, ?_⟩
  intro j fd hmeant
  change Function.update s.meant i (s.meantBy kev) j = some fd at hmeant
  show Names s.ff ff_getmaxfd (Function.update s.changes i kev j) fd
  by_cases hj : j = i
  · subst hj
    rw [Function.update_self] at hmeant ⊢
    exact meantBy_names h hissued hmeant
  · rw [Function.update_of_ne hj] at hmeant ⊢
    exact h.change j fd hmeant

/-! ## Changes that are passed on -/

theorem keventChange_filter (ff : NgxFfModule) (kev : HookKevent Unit) : (ff.keventChange kev).filter = kev.filter := by
  unfold NgxFfModule.keventChange
  split <;> rfl

/-- A change that is passed on names its descriptor, if it has the value of a descriptor other than 0, or a descriptor
that is not taken for a value. -/
theorem Names.keventChange_iff {ff : NgxFfModule} (hff : Accepted ff ff_getmaxfd) (h : Names ff ff_getmaxfd kev fd) :
    (ff.keventChange kev).ident = intToIdent fd ↔
      fd ≠ 0 ∧ (kev.ident = intToIdent (valueOf ff (.fstack fd)) ∨ fd ≤ ff.ngx_max_sockets) := by
  rcases h.ident with hident | ⟨hne, hident⟩
  · rw [keventChange_value_iff hff h.filter h.given hident]
    exact (and_iff_left (Or.inl hident)).symm
  · have hother : kev.ident ≠ intToIdent (valueOf ff (.fstack fd)) := by
      have hvalue := h.given.valueOf_lt hff
      have hpos := hff.pos
      have hlow : 0 ≤ fd := h.given.1
      have hadd : valueOf ff (.fstack fd) = fd + ff.ngx_max_sockets := rfl
      rw [hident, Ne, intToIdent_inj hlow (by omega) hvalue.1 hvalue.2]
      omega
    rw [keventChange_again_iff hff h.filter h.given hident, and_iff_right hne, or_iff_right hother]

/-- INTERNAL: the changes after they have been passed on. -/
theorem kevent_changes (changelist nchanges i : ℕ) :
    (s.step (.kevent changelist nchanges)).changes i =
      if changelist ≤ i ∧ i < changelist + nchanges then s.ff.keventChange (s.changes i) else s.changes i := rfl

theorem kevent_right_iff (h : Partitioned ff_getmaxfd s) (changelist nchanges : ℕ) :
    NgxCallRight s (.kevent changelist nchanges) ↔ NgxCallSafe s (.kevent changelist nchanges) := by
  refine forall₂_congr fun i fd => forall₃_congr fun hlow hhigh hmeant => ?_
  rw [kevent_changes, if_pos ⟨hlow, hhigh⟩]
  exact (h.change i fd hmeant).keventChange_iff h.accepted

theorem kevent_partitioned (h : Partitioned ff_getmaxfd s) {changelist nchanges : ℕ}
    (hright : NgxCallRight s (.kevent changelist nchanges)) :
    Partitioned ff_getmaxfd (s.step (.kevent changelist nchanges)) := by
  refine ⟨h.accepted, h.held, ?_⟩
  intro i fd hmeant
  have hnames := h.change i fd hmeant
  by_cases hi : changelist ≤ i ∧ i < changelist + nchanges
  · have hne := ((kevent_right_iff h changelist nchanges).mp hright i fd hi.1 hi.2 hmeant).1
    refine ⟨?_, hnames.given, Or.inr ⟨hne, hright i fd hi.1 hi.2 hmeant⟩⟩
    rw [kevent_changes, if_pos hi, keventChange_filter]
    exact hnames.filter
  · rw [kevent_changes, if_neg hi]
    exact hnames

/-! ## Runs -/

theorem ngxCall_right_iff (h : Partitioned ff_getmaxfd s) (hissued : NgxCallIssued ff_getmaxfd s call) :
    NgxCallRight s call ↔ NgxCallSafe s call := by
  cases call with
  | socket domain type made => exact iff_of_true (socket_right h hissued).1 trivial
  | accept sockfd made => exact (accept_right h hissued).1
  | accept4 sockfd made => exact (accept_right h hissued).1
  | hooked f sockfd => exact held_reached_iff h hissued
  | change i kev => exact Iff.rfl
  | kevent changelist nchanges => exact kevent_right_iff h changelist nchanges

theorem ngxCall_partitioned (h : Partitioned ff_getmaxfd s) (hissued : NgxCallIssued ff_getmaxfd s call)
    (hsafe : NgxCallSafe s call) : Partitioned ff_getmaxfd (s.step call) := by
  cases call with
  | socket domain type made => exact (socket_right h hissued).2
  | accept sockfd made => exact (accept_right h hissued).2
  | accept4 sockfd made => exact (accept_right h hissued).2
  | hooked f sockfd => exact hooked_partitioned h f sockfd
  | change i kev => exact change_partitioned h hissued
  | kevent changelist nchanges =>
    exact kevent_partitioned h ((kevent_right_iff h changelist nchanges).mpr hsafe)

end Calls

/-- Every call of a run reaches the descriptor that its value was made from, every value is an `int`, and every change
that is passed on names the descriptor that was meant, if and only if no call is about the descriptor 0 of F-Stack and
no change about one above `ngx_max_sockets` is passed on twice. -/
theorem partition_right_iff {ngx_max_sockets rc : ℤ} {ff_getmaxfd : BitVec 32} {ff : NgxFfModule}
    {memory : ℕ → HookKevent Unit} {calls : List NgxCall} (hpos : 1 ≤ ngx_max_sockets)
    (hinit : ffModInit ngx_max_sockets rc ff_getmaxfd = some (0, ff))
    (hissued : AllSteps NgxApp.step (NgxCallIssued ff_getmaxfd) (NgxApp.start ff memory) calls) :
    AllSteps NgxApp.step NgxCallRight (NgxApp.start ff memory) calls ↔
      AllSteps NgxApp.step NgxCallSafe (NgxApp.start ff memory) calls := by
  refine allSteps_issued_iff (I := Partitioned ff_getmaxfd) ?_ ?_ ?_ hissued
  · exact fun s call h hissued hsafe => ngxCall_partitioned h hissued hsafe
  · exact fun s call h hissued => ngxCall_right_iff h hissued
  · exact start_partitioned (accepted_of_ffModInit hpos hinit) memory

/-- A socket of F-Stack that listens, whose change is passed on twice. -/
theorem listening_run_right :
    AllSteps NgxApp.step NgxCallRight (NgxApp.start ⟨1024, true⟩ fun _ => ⟨0, 0, ()⟩)
      [.socket 2 0x01000001 5, .hooked .listen 1029, .change 0 ⟨1029, EVFILT_READ, ()⟩, .kevent 0 1, .kevent 0 1] := by
  have hinit : ffModInit 1024 0 65535 = some (0, ⟨1024, true⟩) := by decide
  let s := (NgxApp.start ⟨1024, true⟩ fun _ => ⟨0, 0, ()⟩).step (.socket 2 0x01000001 5)
  have hheld : s.held 1029 = some (.fstack 5) := by decide
  have hmeantBy : s.meantBy ⟨1029, EVFILT_READ, ()⟩ = some 5 := by
    have hident : identToInt 1029 = 1029 := by decide
    rw [NgxApp.meantBy, if_pos (by decide)]
    dsimp only
    rw [hident, hheld]
  have hmeant : ∀ (i : ℕ) (fd : ℤ), i < 0 + 1 →
      Function.update s.meant 0 (s.meantBy ⟨1029, EVFILT_READ, ()⟩) i = some fd → fd = 5 := by
    intro i fd hi hfd
    obtain rfl : i = 0 := by omega
    rw [Function.update_self, hmeantBy] at hfd
    exact (Option.some.inj hfd).symm
  have hsmall : (5 : ℤ) ≠ 0 ∧ (5 : ℤ) ≤ 1024 := by decide
  refine (partition_right_iff (by decide) hinit ?_).mpr ⟨trivial, ?_, trivial, ?_, ?_, trivial⟩
  · exact ⟨Or.inr ⟨by decide, by decide⟩, ⟨_, hheld⟩, fun _ => ⟨1029, 5, by decide, hheld⟩, trivial, trivial, trivial⟩
  · intro h
    exact absurd (hheld.symm.trans h) (by decide)
  · intro i fd _ hi hfd
    rw [hmeant i fd hi hfd]
    exact ⟨hsmall.1, Or.inr hsmall.2⟩
  · intro i fd _ hi hfd
    rw [hmeant i fd hi hfd]
    exact ⟨hsmall.1, Or.inr hsmall.2⟩

/-- The first descriptor of F-Stack: its value is taken for a descriptor of F-Stack, but not restored. -/
theorem first_descriptor_missed :
    ¬ ∀ (ngx_max_sockets rc : ℤ) (ff_getmaxfd : BitVec 32) (ff : NgxFfModule) (memory : ℕ → HookKevent Unit)
        (calls : List NgxCall), 1 ≤ ngx_max_sockets → ffModInit ngx_max_sockets rc ff_getmaxfd = some (0, ff) →
      AllSteps NgxApp.step (NgxCallIssued ff_getmaxfd) (NgxApp.start ff memory) calls →
        AllSteps NgxApp.step NgxCallRight (NgxApp.start ff memory) calls := by
  intro h
  have hright := h 1024 0 65535 ⟨1024, true⟩ (fun _ => ⟨0, 0, ()⟩) [.socket 2 0x01000001 0, .hooked .read 1024] (by decide)
    (by decide) ⟨Or.inr ⟨by decide, by decide⟩, ⟨_, rfl⟩, trivial⟩
  have hreached : (some (.fstack 0) : Option NgxDescriptor) = some (.fstack 1024) := hright.2.1
  exact absurd hreached (by decide)

end FStack.Analysis
