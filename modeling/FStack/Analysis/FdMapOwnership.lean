import FStack.Model.FdMap
import FStack.Prelude.Monitored

/-!
# The entries of the descriptor maps

An entry of `ff_native_fd_map` or `ff_epoll_pairs` connects a number of the F-Stack side with a number of
the host.  It is right as long as both numbers refer to the files that they referred to when the entry
was made: the socket and the host socket that were created together, or the kqueue and its host epoll.

`fdRun_entriesOk_iff` says which calls break this.  `ff_dup2` closes the number it writes to without
looking at its entries; `ff_close` keeps them if the file reports an error while the number is free
already; a host epoll is made for any number; and numbers above `FF_KERNEL_FD_BASE` reach the host
descriptors of the entries.
-/

set_option autoImplicit false

namespace FStack.Analysis

open FStack.Prelude FStack.Model

variable {i slot : ℕ} {oldfd newfd : ℤ} {inRange error : Bool} {n : Option ℤ}

/-- The place of an entry. -/
inductive Entry where
  | native (fd : ℤ)
  | pair (i : ℕ)
deriving DecidableEq

variable {fd x kq : ℤ} {file : Option ℕ} {a : Entry}

/-- The numbers that an entry connects. -/
def entryOf (st : FdState) : Entry → Option (ℤ × ℤ)
  | .native fd => if 0 < ffNativeMapGet st fd then some (fd, ffNativeMapGet st fd) else none
  | .pair i =>
    if i < FF_EPOLL_COEXIST_MAX ∧ 0 < (st.epoll_pairs i).host_ep then
      some ((st.epoll_pairs i).kq, (st.epoll_pairs i).host_ep)
    else none

theorem entryOf_native_eq (st : FdState) (fd : ℤ) :
    entryOf st (.native fd) =
      if 0 < ffNativeMapGet st fd then some (fd, ffNativeMapGet st fd) else none := rfl

theorem entryOf_pair_eq (st : FdState) (i : ℕ) :
    entryOf st (.pair i) =
      if i < FF_EPOLL_COEXIST_MAX ∧ 0 < (st.epoll_pairs i).host_ep then
        some ((st.epoll_pairs i).kq, (st.epoll_pairs i).host_ep)
      else none := rfl

/-- What the numbers of the entries referred to when the entries were made; an entry that is new or
other than before is noted. -/
def remade (st st' : FdState) (made : Entry → Option ℕ × Option ℕ) : Entry → Option ℕ × Option ℕ :=
  fun a =>
    if entryOf st' a = entryOf st a then made a
    else
      match entryOf st' a with
      | none => made a
      | some (fd, h) => (st'.files fd, st'.host h)

/-- The descriptors, and the files that the entries were made for. -/
structure Tracked where
  st : FdState
  made : Entry → Option ℕ × Option ℕ

/-- No entry has been made yet. -/
def noEntry : Entry → Option ℕ × Option ℕ := fun _ => (none, none)

def Tracked.call (t : Tracked) (c : FdCall) : Tracked :=
  ⟨fdCall t.st c, remade t.st (fdCall t.st c) t.made⟩

/-- Every entry connects two open numbers, and each refers to the file that the entry was made for. -/
def EntriesOk (st : FdState) (made : Entry → Option ℕ × Option ℕ) : Prop :=
  ∀ a fd h, entryOf st a = some (fd, h) →
    ∃ file hostFile, made a = (some file, some hostFile) ∧ st.files fd = some file ∧
      st.host h = some hostFile

/-- The calls that do not harm the entries. -/
def CallOk (st : FdState) : FdCall → Prop
  | .dup2 oldfd newfd inRange =>
    inRange = true → ffIsKernelFd oldfd = ffIsKernelFd newfd →
      if ffIsKernelFd oldfd then
        (st.host (ffKernelFdReal oldfd)).isSome = true →
          ∀ a fd, entryOf st a = some (fd, ffKernelFdReal newfd) →
            st.host (ffKernelFdReal oldfd) = st.host (ffKernelFdReal newfd)
      else
        (st.files oldfd).isSome = true → 0 ≤ newfd →
          ∀ a h, entryOf st a = some (newfd, h) → st.files oldfd = st.files newfd
  | .close fd error =>
    if ffIsKernelFd fd then ∀ a x, entryOf st a ≠ some (x, ffKernelFdReal fd)
    else error = true → (st.files fd).isSome = true → ∀ a h, entryOf st a ≠ some (fd, h)
  | .hostEp kq n =>
    findPair st kq = none → (freeSlot st).isSome = true →
      (∃ ep, freeNumber st.host n = some ep ∧ 0 < ep) → (st.files kq).isSome = true
  | _ => True

/-! ## The invariant -/

/-- The entries are right, and no two of them have a host descriptor or a kqueue in common. -/
structure FdInv (st : FdState) (made : Entry → Option ℕ × Option ℕ) : Prop where
  ok : EntriesOk st made
  host_inj : ∀ a b fd fd' h, entryOf st a = some (fd, h) → entryOf st b = some (fd', h) → a = b
  kq_inj : ∀ i j kq h h', entryOf st (.pair i) = some (kq, h) →
    entryOf st (.pair j) = some (kq, h') → i = j

variable {st st' : FdState} {made : Entry → Option ℕ × Option ℕ}

theorem remade_of_eq {a : Entry} (h : entryOf st' a = entryOf st a) :
    remade st st' made a = made a := if_pos h

/-- Entries may go, and numbers that no entry has may change. -/
theorem FdInv.mono (h : FdInv st made)
    (hsub : ∀ a p, entryOf st' a = some p → entryOf st a = some p)
    (hfiles : ∀ a fd x, entryOf st' a = some (fd, x) → st'.files fd = st.files fd)
    (hhost : ∀ a fd x, entryOf st' a = some (fd, x) → st'.host x = st.host x) :
    FdInv st' (remade st st' made) where
  ok a fd x ha := by
    obtain ⟨file, hostFile, hmade, hfile, hhostFile⟩ := h.ok a fd x (hsub a _ ha)
    refine ⟨file, hostFile, ?_, (hfiles a fd x ha).trans hfile, (hhost a fd x ha).trans hhostFile⟩
    rw [remade_of_eq (ha.trans (hsub a _ ha).symm)]
    exact hmade
  host_inj a b fd fd' x ha hb := h.host_inj a b fd fd' x (hsub a _ ha) (hsub b _ hb)
  kq_inj i j kq x x' hi hj := h.kq_inj i j kq x x' (hsub _ _ hi) (hsub _ _ hj)

/-- An entry may come for open numbers, if no entry has the host descriptor, and no pair the
kqueue. -/
theorem FdInv.add (h : FdInv st made) {a₀ : Entry} {fd₀ h₀ : ℤ}
    (hnew : entryOf st' a₀ = some (fd₀, h₀)) (hold : entryOf st a₀ = none)
    (hother : ∀ a, a ≠ a₀ → entryOf st' a = entryOf st a)
    (hkeep : ∀ a fd x, entryOf st a = some (fd, x) →
      st'.files fd = st.files fd ∧ st'.host x = st.host x)
    (hfd : (st'.files fd₀).isSome = true) (hh : (st'.host h₀).isSome = true)
    (hfresh : ∀ a fd, entryOf st a ≠ some (fd, h₀))
    (hkq : ∀ i, a₀ = .pair i → ∀ j x, entryOf st (.pair j) ≠ some (fd₀, x)) :
    FdInv st' (remade st st' made) := by
  have hcases : ∀ a p, entryOf st' a = some p → a = a₀ ∧ p = (fd₀, h₀) ∨ entryOf st a = some p := by
    intro a p ha
    by_cases heq : a = a₀
    · subst heq
      exact .inl ⟨rfl, Option.some.inj (ha.symm.trans hnew)⟩
    · exact .inr ((hother a heq).symm.trans ha)
  refine ⟨?_, ?_, ?_⟩
  · intro a fd x ha
    by_cases heq : a = a₀
    · subst heq
      obtain ⟨rfl, rfl⟩ := Prod.mk.inj (Option.some.inj (ha.symm.trans hnew))
      obtain ⟨file, hfile⟩ := Option.isSome_iff_exists.mp hfd
      obtain ⟨hostFile, hhostFile⟩ := Option.isSome_iff_exists.mp hh
      refine ⟨file, hostFile, ?_, hfile, hhostFile⟩
      rw [remade, if_neg (by rw [ha, hold]; simp), ha]
      simp [hfile, hhostFile]
    · have hsame := hother a heq
      obtain ⟨file, hostFile, hmade, hfile, hhostFile⟩ := h.ok a fd x (hsame ▸ ha)
      obtain ⟨hf, hx⟩ := hkeep a fd x (hsame ▸ ha)
      exact ⟨file, hostFile, (remade_of_eq hsame).trans hmade, hf.trans hfile, hx.trans hhostFile⟩
  · intro a b fd fd' x ha hb
    obtain ⟨rfl, hp⟩ | ha' := hcases a _ ha <;> obtain ⟨rfl, hp'⟩ | hb' := hcases b _ hb
    · rfl
    · obtain ⟨-, rfl⟩ := Prod.mk.inj hp
      exact absurd hb' (hfresh b fd')
    · obtain ⟨-, rfl⟩ := Prod.mk.inj hp'
      exact absurd ha' (hfresh a fd)
    · exact h.host_inj a b fd fd' x ha' hb'
  · intro i j kq x x' hi hj
    obtain ⟨heq, hp⟩ | hi' := hcases _ _ hi <;> obtain ⟨heq', hp'⟩ | hj' := hcases _ _ hj
    · exact Entry.pair.inj (heq.trans heq'.symm)
    · obtain ⟨rfl, -⟩ := Prod.mk.inj hp
      exact absurd hj' (hkq i heq.symm j x')
    · obtain ⟨rfl, -⟩ := Prod.mk.inj hp'
      exact absurd hi' (hkq j heq'.symm i x)
    · exact h.kq_inj i j kq x x' hi' hj'

/-! ## The tables -/

/-- No entry has a number that is not in use. -/
theorem EntriesOk.ne_of_free (h : EntriesOk st made) (hfree : st.files fd = none) (a : Entry) (x : ℤ) :
    entryOf st a ≠ some (fd, x) := by
  intro ha
  obtain ⟨file, _, -, hfile, -⟩ := h a fd x ha
  rw [hfree] at hfile
  cases hfile

theorem EntriesOk.ne_of_free_host (h : EntriesOk st made) (hfree : st.host x = none) (a : Entry) (fd : ℤ) :
    entryOf st a ≠ some (fd, x) := by
  intro ha
  obtain ⟨_, hostFile, -, -, hhost⟩ := h a fd x ha
  rw [hfree] at hhost
  cases hhost

/-- What a number of the F-Stack side refers to may change if no entry has it. -/
theorem FdInv.setFile (h : FdInv st made) (hsame : ∀ a x, entryOf st a = some (fd, x) → file = st.files fd) :
    FdInv (st.setFile fd file) (remade st (st.setFile fd file) made) := by
  refine @FdInv.mono st (st.setFile fd file) made h (fun _ _ h => h) ?_ fun _ _ _ _ => rfl
  intro a fd' x ha
  by_cases heq : fd' = fd
  · subst heq
    simpa [FdState.setFile] using hsame a x ha
  · simp [FdState.setFile, heq]

theorem FdInv.setHost (h : FdInv st made) (hsame : ∀ a fd, entryOf st a = some (fd, x) → file = st.host x) :
    FdInv (st.setHost x file) (remade st (st.setHost x file) made) := by
  refine @FdInv.mono st (st.setHost x file) made h (fun _ _ h => h) (fun _ _ _ _ => rfl) ?_
  intro a fd y ha
  by_cases heq : y = x
  · subst heq
    simpa [FdState.setHost] using hsame a fd ha
  · simp [FdState.setHost, heq]

/-- And only then, where nothing else changes. -/
theorem FdInv.file_eq (h : FdInv st made)
    (hok : EntriesOk (st.setFile fd file) (remade st (st.setFile fd file) made))
    (ha : entryOf st a = some (fd, x)) : file = st.files fd := by
  obtain ⟨f, _, hmade, hfile, -⟩ := hok a fd x ha
  obtain ⟨f', _, hmade', hfile', -⟩ := h.ok a fd x ha
  rw [@remade_of_eq st (st.setFile fd file) made a rfl, hmade'] at hmade
  simp only [FdState.setFile, Function.update_self] at hfile
  rw [hfile, hfile']
  exact (Prod.mk.inj hmade).1.symm

theorem FdInv.host_eq (h : FdInv st made)
    (hok : EntriesOk (st.setHost x file) (remade st (st.setHost x file) made)) (ha : entryOf st a = some (fd, x)) :
    file = st.host x := by
  obtain ⟨_, f, hmade, -, hfile⟩ := hok a fd x ha
  obtain ⟨_, f', hmade', -, hfile'⟩ := h.ok a fd x ha
  rw [@remade_of_eq st (st.setHost x file) made a rfl, hmade'] at hmade
  simp only [FdState.setHost, Function.update_self] at hfile
  rw [hfile, hfile']
  exact (Prod.mk.inj hmade).2.symm

/-- A call that does nothing. -/
theorem FdInv.refl (h : FdInv st made) : FdInv st (remade st st made) :=
  h.mono (fun _ _ h => h) (fun _ _ _ _ => rfl) fun _ _ _ _ => rfl

/-- A file is opened under a number that is free. -/
theorem FdInv.openFile (h : FdInv st made) (hfree : st.files fd = none) :
    FdInv (st.openFile fd) (remade st (st.openFile fd) made) := by
  have hset : FdInv (st.setFile fd (some st.next)) (remade st (st.setFile fd (some st.next)) made) :=
    h.setFile fun a x ha => absurd ha (h.ok.ne_of_free hfree a x)
  exact ⟨hset.ok, hset.host_inj, hset.kq_inj⟩

theorem FdInv.openHost (h : FdInv st made) (hfree : st.host x = none) :
    FdInv (st.openHost x) (remade st (st.openHost x) made) := by
  have hset : FdInv (st.setHost x (some st.next)) (remade st (st.setHost x (some st.next)) made) :=
    h.setHost fun a fd ha => absurd ha (h.ok.ne_of_free_host hfree a fd)
  exact ⟨hset.ok, hset.host_inj, hset.kq_inj⟩

theorem FdInv.newHost (h : FdInv st made) (n : Option ℤ) :
    FdInv (st.newHost n) (remade st (st.newHost n) made) := by
  unfold FdState.newHost
  cases hn : freeNumber st.host n with
  | none => exact h.refl
  | some x => exact h.openHost (freeNumber_eq_some hn).2.2

theorem FdInv.newFile (h : FdInv st made) (n : Option ℤ) :
    FdInv (st.newFile n) (remade st (st.newFile n) made) := by
  unfold FdState.newFile
  cases hn : freeNumber st.files n with
  | none => exact h.refl
  | some fd => exact h.openFile (freeNumber_eq_some hn).2.2

/-! ## The maps -/

theorem ffNativeMapGet_set (st : FdState) (fd x fd' : ℤ) :
    ffNativeMapGet (ffNativeMapSet st fd x) fd' =
      if fd' = fd ∧ 0 ≤ fd ∧ fd < FF_MAX_FREEBSD_FILES then x else ffNativeMapGet st fd' := by
  unfold ffNativeMapGet ffNativeMapSet
  by_cases hfd : 0 ≤ fd ∧ fd < FF_MAX_FREEBSD_FILES
  · rw [if_pos hfd]
    by_cases heq : fd' = fd
    · subst heq
      rw [if_neg (by omega), if_pos ⟨rfl, hfd⟩]
      exact Function.update_self _ _ _
    · rw [if_neg (fun h : fd' = fd ∧ _ => heq h.1)]
      simp [heq]
  · rw [if_neg hfd, if_neg fun h : fd' = fd ∧ _ => hfd h.2]

theorem pairs_mapSet (st : FdState) (fd x : ℤ) :
    (ffNativeMapSet st fd x).epoll_pairs = st.epoll_pairs := by
  unfold ffNativeMapSet
  split <;> rfl

theorem entryOf_mapSet_ne (st : FdState) (ha : a ≠ .native fd) :
    entryOf (ffNativeMapSet st fd x) a = entryOf st a := by
  cases a with
  | native fd' =>
    have hne : fd' ≠ fd := fun heq => ha (by rw [heq])
    have hget : ffNativeMapGet (ffNativeMapSet st fd x) fd' = ffNativeMapGet st fd' := by
      rw [ffNativeMapGet_set, if_neg fun h => hne h.1]
    rw [entryOf_native_eq, entryOf_native_eq, hget]
  | pair i => rw [entryOf_pair_eq, entryOf_pair_eq, pairs_mapSet]

theorem entryOf_mapSet (st : FdState) (hfd : 0 ≤ fd) (hlt : fd < FF_MAX_FREEBSD_FILES) :
    entryOf (ffNativeMapSet st fd x) (.native fd) = if 0 < x then some (fd, x) else none := by
  have hget : ffNativeMapGet (ffNativeMapSet st fd x) fd = x := by
    rw [ffNativeMapGet_set, if_pos ⟨rfl, hfd, hlt⟩]
  rw [entryOf_native_eq, hget]

theorem entryOf_native {fd' : ℤ} (h : entryOf st (.native fd) = some (fd', x)) : fd' = fd := by
  rw [entryOf_native_eq] at h
  split at h
  · exact (Prod.mk.inj (Option.some.inj h)).1.symm
  · cases h

theorem files_mapSet (st : FdState) (fd x : ℤ) : (ffNativeMapSet st fd x).files = st.files := by
  unfold ffNativeMapSet
  split <;> rfl

theorem host_mapSet (st : FdState) (fd x : ℤ) : (ffNativeMapSet st fd x).host = st.host := by
  unfold ffNativeMapSet
  split <;> rfl

theorem findPair_eq_some (h : findPair st kq = some i) :
    entryOf st (.pair i) = some (kq, (st.epoll_pairs i).host_ep) := by
  obtain ⟨hp, hi, -⟩ := List.find?_range_eq_some.mp h
  simp only [Bool.and_eq_true, decide_eq_true_eq, beq_iff_eq] at hp
  rw [entryOf_pair_eq, if_pos ⟨List.mem_range.mp hi, hp.1⟩, hp.2]

theorem findPair_eq_none (h : findPair st kq = none) (i : ℕ) (x : ℤ) :
    entryOf st (.pair i) ≠ some (kq, x) := by
  intro ha
  rw [entryOf_pair_eq] at ha
  split at ha
  · rename_i hp
    have hnot := List.find?_eq_none.mp h i (List.mem_range.mpr hp.1)
    simp [hp.2, (Prod.mk.inj (Option.some.inj ha)).1] at hnot
  · cases ha

theorem entryOf_freeSlot (h : freeSlot st = some slot) : entryOf st (.pair slot) = none := by
  rw [entryOf_pair_eq, if_neg fun hand => absurd hand.2 (not_lt.mpr (freeSlot_eq_some h).2)]

theorem entryOf_setPair_ne (st : FdState) (p : EpollPair) (ha : a ≠ .pair i) :
    entryOf (st.setPair i p) a = entryOf st a := by
  cases a with
  | native fd => rfl
  | pair j =>
    have hne : j ≠ i := fun heq => ha (by rw [heq])
    simp [entryOf_pair_eq, FdState.setPair, hne]

/-! ## The calls -/

/-- A dual-stack socket.
SOURCE: lib/ff_syscall_wrapper.c:941-955 -/
theorem FdInv.dualSocket (h : FdInv st made) (hfd : 0 ≤ fd) (hfree : st.files fd = none)
    (hfree' : st.host x = none) :
    FdInv (ffNativeMapSet ((st.openFile fd).openHost x) fd x)
      (remade st (ffNativeMapSet ((st.openFile fd).openHost x) fd x) made) := by
  have hkeep : ∀ a fd' y, entryOf st a = some (fd', y) →
      (ffNativeMapSet ((st.openFile fd).openHost x) fd x).files fd' = st.files fd' ∧
        (ffNativeMapSet ((st.openFile fd).openHost x) fd x).host y = st.host y := by
    intro a fd' y ha
    rw [files_mapSet, host_mapSet]
    constructor
    · refine Function.update_of_ne ?_ _ _
      rintro rfl
      exact h.ok.ne_of_free hfree a y ha
    · refine Function.update_of_ne ?_ _ _
      rintro rfl
      exact h.ok.ne_of_free_host hfree' a fd' ha
  have hold : entryOf st (.native fd) = none := by
    cases he : entryOf st (.native fd) with
    | none => rfl
    | some p =>
      obtain ⟨fd', y⟩ := p
      obtain rfl := entryOf_native he
      exact absurd he (h.ok.ne_of_free hfree _ y)
  have hother : ∀ a, a ≠ .native fd →
      entryOf (ffNativeMapSet ((st.openFile fd).openHost x) fd x) a = entryOf st a :=
    fun a ha => entryOf_mapSet_ne _ ha
  by_cases hnew : fd < FF_MAX_FREEBSD_FILES ∧ 0 < x
  · refine @FdInv.add _ _ _ h (.native fd) fd x ?_ hold hother hkeep ?_ ?_ ?_ ?_
    · rw [entryOf_mapSet _ hfd hnew.1, if_pos hnew.2]
    · rw [files_mapSet]
      simp [FdState.openFile, FdState.openHost, FdState.setFile, FdState.setHost]
    · rw [host_mapSet]
      simp [FdState.openHost, FdState.setHost]
    · intro a fd'
      exact h.ok.ne_of_free_host hfree' a fd'
    · intro i heq
      cases heq
  · have hsame : ∀ a p, entryOf (ffNativeMapSet ((st.openFile fd).openHost x) fd x) a = some p →
        entryOf st a = some p := by
      intro a p ha
      by_cases heq : a = .native fd
      · subst heq
        by_cases hlt : fd < FF_MAX_FREEBSD_FILES
        · rw [entryOf_mapSet _ hfd hlt, if_neg fun hx => hnew ⟨hlt, hx⟩] at ha
          cases ha
        · rw [ffNativeMapSet, if_neg fun hand => hlt hand.2] at ha
          exact ha
      · exact (hother a heq).symm.trans ha
    exact h.mono hsame (fun a fd' y ha => (hkeep a fd' y (hsame a _ ha)).1)
      fun a fd' y ha => (hkeep a fd' y (hsame a _ ha)).2

/-- What closing the host socket of a descriptor leaves. -/
structure NativeClosed (st st' : FdState) (fd : ℤ) : Prop where
  files : st'.files = st.files
  pairs : st'.epoll_pairs = st.epoll_pairs
  gone : entryOf st' (.native fd) = none
  others : ∀ a, a ≠ .native fd → entryOf st' a = entryOf st a
  host : ∀ x, entryOf st (.native fd) ≠ some (fd, x) → st'.host x = st.host x

theorem closeNative_closed (st : FdState) (fd : ℤ) : NativeClosed st (closeNative st fd) fd := by
  unfold closeNative
  split
  · rename_i hpos
    have hrange : 0 ≤ fd ∧ fd < FF_MAX_FREEBSD_FILES := by
      by_contra hout
      rw [ffNativeMapGet, if_pos (by omega)] at hpos
      exact absurd hpos (lt_irrefl 0)
    refine ⟨files_mapSet _ _ _, pairs_mapSet _ _ _, ?_, fun a ha => entryOf_mapSet_ne _ ha, ?_⟩
    · rw [entryOf_mapSet _ hrange.1 hrange.2, if_neg (lt_irrefl 0)]
    · intro x hx
      rw [host_mapSet]
      refine Function.update_of_ne ?_ _ _
      rintro rfl
      exact hx (if_pos hpos)
  · rename_i hzero
    exact ⟨rfl, rfl, if_neg hzero, fun _ _ => rfl, fun _ _ => rfl⟩

/-- What closing the host epoll of a descriptor leaves. -/
structure PairClosed (st st' : FdState) (kq : ℤ) : Prop where
  files : st'.files = st.files
  native : ∀ fd, entryOf st' (.native fd) = entryOf st (.native fd)
  pair : ∀ i p, entryOf st' (.pair i) = some p →
    entryOf st (.pair i) = some p ∧ findPair st kq ≠ some i
  host : ∀ x, (∀ i, entryOf st (.pair i) ≠ some (kq, x)) → st'.host x = st.host x

theorem ffEpollClosePair_closed (st : FdState) (kq : ℤ) :
    PairClosed st (ffEpollClosePair st kq) kq := by
  unfold ffEpollClosePair
  cases hfind : findPair st kq with
  | none => exact ⟨rfl, fun _ => rfl, fun i p hp => ⟨hp, by simp [hfind]⟩, fun _ _ => rfl⟩
  | some i =>
    refine ⟨rfl, fun _ => rfl, ?_, ?_⟩
    · intro j p hp
      by_cases hji : j = i
      · subst hji
        simp [entryOf_pair_eq, FdState.setPair] at hp
      · rw [entryOf_setPair_ne _ _ fun heq => hji (Entry.pair.inj heq)] at hp
        exact ⟨hp, fun heq => hji (Option.some.inj (hfind.symm.trans heq)).symm⟩
    · intro x hx
      refine Function.update_of_ne ?_ _ _
      rintro rfl
      exact hx i (findPair_eq_some hfind)

/-- A close that goes through.  The entries of the number go with it; the host descriptors
that are closed are theirs, and no other entry has them.
SOURCE: lib/ff_syscall_wrapper.c:1146-1163 -/
theorem FdInv.close (h : FdInv st made) (fd : ℤ) :
    FdInv (ffEpollClosePair (closeNative (st.setFile fd none) fd) fd)
      (remade st (ffEpollClosePair (closeNative (st.setFile fd none) fd) fd) made) := by
  have hnative := closeNative_closed (st.setFile fd none) fd
  have hpair := ffEpollClosePair_closed (closeNative (st.setFile fd none) fd) fd
  set st₁ := closeNative (st.setFile fd none) fd
  set st₂ := ffEpollClosePair st₁ fd
  -- the entries that are left were there before, and are for other numbers
  have hsub : ∀ a fd' x, entryOf st₂ a = some (fd', x) →
      entryOf st a = some (fd', x) ∧ fd' ≠ fd := by
    intro a fd' x ha
    cases a with
    | native fd'' =>
      rw [hpair.native] at ha
      have hne : fd'' ≠ fd := by
        rintro rfl
        rw [hnative.gone] at ha
        cases ha
      rw [hnative.others _ fun heq => hne (Entry.native.inj heq)] at ha
      exact ⟨ha, entryOf_native ha ▸ hne⟩
    | pair i =>
      obtain ⟨ha', hfind⟩ := hpair.pair i _ ha
      rw [hnative.others _ (by simp)] at ha'
      refine ⟨ha', ?_⟩
      rintro rfl
      -- the pair that was closed is the one of the number
      cases hj : findPair st₁ fd' with
      | none => exact findPair_eq_none hj i x (by rw [hnative.others _ (by simp)]; exact ha')
      | some j =>
        have hpj := findPair_eq_some hj
        rw [hnative.others _ (by simp)] at hpj
        have hij : i = j := h.kq_inj i j fd' x _ ha' hpj
        rw [hij] at hfind
        exact hfind hj
  refine h.mono (fun a p ha => (hsub a p.1 p.2 ha).1) ?_ ?_
  · intro a fd' x ha
    rw [hpair.files, hnative.files]
    exact Function.update_of_ne (hsub a fd' x ha).2 _ _
  · intro a fd' x ha
    obtain ⟨hbefore, hne⟩ := hsub a fd' x ha
    have hunshared : ∀ b, entryOf st b ≠ some (fd, x) := by
      intro b hb
      obtain rfl := h.host_inj a b fd' fd x hbefore hb
      exact hne (Prod.mk.inj (Option.some.inj (hbefore.symm.trans hb))).1
    rw [hpair.host x, hnative.host x]
    · rfl
    · exact hunshared (.native fd)
    · intro i
      rw [hnative.others _ (by simp)]
      exact hunshared (.pair i)

/-- A host epoll for an open descriptor.
SOURCE: lib/ff_epoll.c:57-63 -/
theorem FdInv.hostEp (h : FdInv st made) {ep : ℤ} (hpair : findPair st kq = none) (hslot : freeSlot st = some slot)
    (hfree : st.host ep = none) (hep : 0 < ep) (hopen : (st.files kq).isSome = true) :
    FdInv ((st.openHost ep).setPair slot ⟨kq, ep⟩)
      (remade st ((st.openHost ep).setPair slot ⟨kq, ep⟩) made) := by
  have hlt := (freeSlot_eq_some hslot).1
  have hold := entryOf_freeSlot hslot
  refine @FdInv.add _ _ _ h (.pair slot) kq ep ?_ hold ?_ ?_ hopen ?_ ?_ ?_
  · rw [entryOf_pair_eq, if_pos]
    · simp [FdState.setPair]
    · simpa [FdState.setPair] using ⟨hlt, hep⟩
  · intro a ha
    exact entryOf_setPair_ne _ _ ha
  · intro a fd x ha
    refine ⟨rfl, Function.update_of_ne ?_ _ _⟩
    rintro rfl
    exact h.ok.ne_of_free_host hfree a fd ha
  · simp [FdState.setPair, FdState.openHost, FdState.setHost]
  · intro a fd
    exact h.ok.ne_of_free_host hfree a fd
  · intro i _ j x
    exact findPair_eq_none hpair j x

/-- `ff_dup2` that does no harm.
SOURCE: lib/ff_syscall_wrapper.c:2170-2203 -/
theorem FdInv.dup2 (h : FdInv st made) (hc : CallOk st (.dup2 oldfd newfd inRange)) :
    FdInv (ffDup2 st oldfd newfd inRange) (remade st (ffDup2 st oldfd newfd inRange) made) := by
  unfold ffDup2
  by_cases hsame : ffIsKernelFd oldfd = ffIsKernelFd newfd
  swap
  · rw [if_pos hsame]
    exact h.refl
  rw [if_neg (not_not_intro hsame)]
  by_cases hrange : inRange = true
  swap
  · simp only [hrange, and_false, if_false, Bool.false_eq_true]
    repeat' first | exact h.refl | split
  have hc := hc hrange hsame
  split
  · rename_i hkernel
    rw [if_pos hkernel] at hc
    split
    · rename_i file hfile
      refine h.setHost fun a fd ha => ?_
      rw [← hfile]
      exact hc (by rw [hfile]; rfl) a fd ha
    · exact h.refl
  · rename_i hkernel
    rw [if_neg hkernel] at hc
    split
    · rename_i file hfile
      split
      · rename_i hnew
        refine h.setFile fun a x ha => ?_
        rw [← hfile]
        exact hc (by rw [hfile]; rfl) hnew.1 a x ha
      · exact h.refl
    · exact h.refl

/-- `ff_dup2` that does harm is seen in the entries. -/
theorem FdInv.dup2_callOk (h : FdInv st made) (hok : EntriesOk (ffDup2 st oldfd newfd inRange)
      (remade st (ffDup2 st oldfd newfd inRange) made)) :
    CallOk st (.dup2 oldfd newfd inRange) := by
  intro hrange hsame
  unfold ffDup2 at hok
  rw [if_neg (not_not_intro hsame)] at hok
  split
  · rename_i hkernel
    intro hopen a fd ha
    obtain ⟨file, hfile⟩ := Option.isSome_iff_exists.mp hopen
    simp only [hkernel, hfile, hrange, if_true] at hok
    rw [hfile]
    exact h.host_eq hok ha
  · rename_i hkernel
    intro hopen hnew a x ha
    obtain ⟨file, hfile⟩ := Option.isSome_iff_exists.mp hopen
    simp only [hkernel, hfile, hrange, hnew, and_self, if_true, if_false, Bool.false_eq_true] at hok
    rw [hfile]
    exact h.file_eq hok ha

/-- `ff_close` that does no harm.
SOURCE: lib/ff_syscall_wrapper.c:1137-1167 -/
theorem FdInv.ffClose (h : FdInv st made) (hc : CallOk st (.close fd error)) :
    FdInv (ffClose st fd error) (remade st (FStack.Model.ffClose st fd error) made) := by
  unfold FStack.Model.ffClose
  simp only [CallOk] at hc
  split
  · rename_i hkernel
    rw [if_pos hkernel] at hc
    exact h.setHost fun a x ha => absurd ha (hc a x)
  · rename_i hkernel
    rw [if_neg hkernel] at hc
    split
    · exact h.refl
    · rename_i hopen
      dsimp only
      split
      · rename_i herror
        exact h.setFile fun a x ha => absurd ha (hc herror (by simpa [Option.isSome_iff_ne_none] using hopen) a x)
      · exact h.close fd

theorem FdInv.close_callOk (h : FdInv st made) (hok : EntriesOk (FStack.Model.ffClose st fd error)
      (remade st (FStack.Model.ffClose st fd error) made)) :
    CallOk st (.close fd error) := by
  unfold FStack.Model.ffClose at hok
  simp only [CallOk]
  split
  · rename_i hkernel
    rw [if_pos hkernel] at hok
    intro a x ha
    obtain ⟨_, hostFile, -, -, hhost⟩ := h.ok a x _ ha
    rw [← h.host_eq hok ha] at hhost
    cases hhost
  · rename_i hkernel
    intro herror hopen a x ha
    rw [if_neg hkernel, if_neg (by simpa [Option.isSome_iff_ne_none] using hopen)] at hok
    simp only [herror, if_true] at hok
    obtain ⟨file, _, -, hfile, -⟩ := h.ok a fd x ha
    rw [← h.file_eq hok ha] at hfile
    cases hfile

/-- `ff_epoll_host_ep` that does no harm.
SOURCE: lib/ff_epoll.c:43-65 -/
theorem FdInv.ffEpollHostEp (h : FdInv st made) (hc : CallOk st (.hostEp kq n)) :
    FdInv (ffEpollHostEp st kq n) (remade st (FStack.Model.ffEpollHostEp st kq n) made) := by
  unfold FStack.Model.ffEpollHostEp
  cases hpair : findPair st kq with
  | some i => exact h.refl
  | none =>
    cases hslot : freeSlot st with
    | none => exact h.refl
    | some slot =>
      dsimp only
      cases hn : freeNumber st.host n with
      | none => exact h.refl
      | some ep =>
        have hfree := (freeNumber_eq_some hn).2.2
        dsimp only
        split
        · rename_i hep
          exact h.hostEp hpair hslot hfree hep (hc hpair (by rw [hslot]; rfl) ⟨ep, hn, hep⟩)
        · exact h.openHost hfree

theorem hostEp_callOk (hok : EntriesOk (FStack.Model.ffEpollHostEp st kq n)
      (remade st (FStack.Model.ffEpollHostEp st kq n) made)) :
    CallOk st (.hostEp kq n) := by
  rintro hpair hslot ⟨ep, hn, hep⟩
  obtain ⟨slot, hslot⟩ := Option.isSome_iff_exists.mp hslot
  simp only [FStack.Model.ffEpollHostEp, hpair, hslot, hn, hep, if_true] at hok
  obtain ⟨file, _, -, hfile, -⟩ := hok (.pair slot) kq ep (by
    rw [entryOf_pair_eq, if_pos]
    · simp [FdState.setPair]
    · simpa [FdState.setPair] using ⟨(freeSlot_eq_some hslot).1, hep⟩)
  exact Option.isSome_iff_exists.mpr ⟨file, hfile⟩

/-- A call that does no harm keeps the invariant. -/
theorem FdInv.call (h : FdInv st made) {c : FdCall} (hc : CallOk st c) :
    FdInv (fdCall st c) (remade st (fdCall st c) made) := by
  cases c with
  | socket stack fd x =>
    simp only [fdCall, ffSocket]
    cases stack with
    | kernel => exact h.newHost x
    | fstack => exact h.newFile fd
    | dual =>
      dsimp only
      cases hfd : freeNumber st.files fd with
      | none => exact h.refl
      | some fd =>
        obtain ⟨-, hnonneg, hfree⟩ := freeNumber_eq_some hfd
        dsimp only
        cases hx : freeNumber (st.openFile fd).host x with
        | none => exact h.openFile hfree
        | some x => exact h.dualSocket hnonneg hfree (freeNumber_eq_some hx).2.2
  | kqueue fd => exact h.newFile fd
  | accept s answer x =>
    simp only [fdCall, ffAccept]
    split
    · split
      · exact h.newHost x
      · exact h.refl
    · split
      · exact h.refl
      · cases answer with
        | accepted fd => exact h.newFile fd
        | again =>
          dsimp only
          split
          · exact h.newHost x
          · exact h.refl
        | failed => exact h.refl
  | dup oldfd n =>
    simp only [fdCall, ffDup]
    split
    · cases hold : st.host (ffKernelFdReal oldfd) <;> cases hn : freeNumber st.host n
      case some.some file x =>
        exact h.setHost fun a fd ha =>
          absurd ha (h.ok.ne_of_free_host (freeNumber_eq_some hn).2.2 a fd)
      all_goals exact h.refl
    · cases hold : st.files oldfd <;> cases hn : freeNumber st.files n
      case some.some file fd =>
        exact h.setFile fun a x ha => absurd ha (h.ok.ne_of_free (freeNumber_eq_some hn).2.2 a x)
      all_goals exact h.refl
  | dup2 oldfd newfd inRange => exact h.dup2 hc
  | close fd error => exact h.ffClose hc
  | hostEp kq n => exact h.ffEpollHostEp hc

/-- After a call the entries are right exactly if the call does no harm. -/
theorem FdInv.entriesOk_iff (h : FdInv st made) (c : FdCall) :
    EntriesOk (fdCall st c) (remade st (fdCall st c) made) ↔ CallOk st c := by
  constructor
  · intro hok
    cases c with
    | dup2 oldfd newfd inRange => exact h.dup2_callOk hok
    | close fd error => exact h.close_callOk hok
    | hostEp kq n => exact hostEp_callOk hok
    | socket | kqueue | accept | dup => trivial
  · intro hc
    exact (h.call hc).ok

/-- From a process without sockets on, the entries of both maps are right after every call exactly if no
call does them harm.
SOURCE: lib/ff_syscall_wrapper.c:914-961, 1137-1167, 2142-2203, lib/ff_epoll.c:36-81 -/
theorem fdRun_entriesOk_iff (isOpen : ℤ → Bool) (calls : List FdCall) :
    AllSteps Tracked.call (fun t c => EntriesOk (t.call c).st (t.call c).made) ⟨fdStart isOpen, noEntry⟩
        calls ↔
      AllSteps Tracked.call (fun t c => CallOk t.st c) ⟨fdStart isOpen, noEntry⟩ calls := by
  have hstart : FdInv (fdStart isOpen) noEntry := by
    have hnone : ∀ a, entryOf (fdStart isOpen) a = none := by
      intro a
      cases a with
      | native fd => simp [entryOf_native_eq, ffNativeMapGet, fdStart]
      | pair i => simp [entryOf_pair_eq, fdStart]
    refine ⟨?_, ?_, ?_⟩
    · intro a fd x ha
      rw [hnone] at ha
      cases ha
    · intro a b fd fd' x ha
      rw [hnone] at ha
      cases ha
    · intro i j kq x x' hi
      rw [hnone] at hi
      cases hi
  refine allSteps_iff (I := fun t => FdInv t.st t.made) (D := fun _ => True) ?_ ?_ hstart
    (fun _ _ => trivial)
  · intro t c ht _ hc
    exact ht.call hc
  · intro t c ht _
    exact ht.entriesOk_iff c

/-- Two dual-stack sockets, 3 and 4, with the host sockets 10 and 11; then `ff_dup2(3, 4)`. -/
def dup2Calls : List FdCall :=
  [.socket .dual (some 3) (some 10), .socket .dual (some 4) (some 11), .dup2 3 4 true]

/-- After `ff_dup2(3, 4)`, descriptor 4 is the first socket and its entry the second host socket.
SOURCE: lib/ff_syscall_wrapper.c:2186-2200 -/
theorem dup2Calls_wrong_host :
    ¬ AllSteps Tracked.call (fun t c => EntriesOk (t.call c).st (t.call c).made)
      ⟨fdStart fun _ => false, noEntry⟩ dup2Calls := by
  rintro ⟨-, -, hok, -⟩
  obtain ⟨file, hostFile, hmade, hfile, -⟩ := hok (.native 4) 4 11 (by decide)
  have hmade' : (some 3, some 4) = (some file, some hostFile) := hmade
  have hfile' : some 1 = some file := hfile
  cases hfile'
  cases hmade'

end FStack.Analysis
