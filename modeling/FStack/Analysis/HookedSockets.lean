import FStack.Model.SysHook
import FStack.Prelude.Monitored

/-!
# Which stack executes a hooked call, and where it waits

A call has to be executed by the stack that made its descriptor, and to wait where the application's
last mode setting says.  This holds in every run in which no number is open in both stacks, kernel
descriptors are only used in the non-blocking mode, accepted descriptors are only used if they are kernel
descriptors, no descriptor is used while it is set back to the blocking mode, and `accept` is called on
non-blocking descriptors (`hookRight_of_safe`).

The code does not ensure any of it: `accept` makes no table entry, so that a call on an accepted F-Stack
socket goes to the kernel (`not_hookRight_accept`); nothing clears `MT_FD_FLG_UNBLOCK`; what `ff_fdisused`
says about a number decides for kernel sockets too; and `MtFrame` waits for every descriptor in the kqueue of
F-Stack, which refuses those of the kernel.
-/

set_option autoImplicit false

namespace FStack.Analysis

open FStack.Model FStack.Prelude

/-- Where the application expects a call with this timeout to wait. -/
def AppSocket.expects (a : AppSocket) (timeout : ℤ) : Waiting :=
  if a.nonblocking then .immediate else .inMtFrame timeout

/-- The timeout that counts for the call. -/
def ioTimeout (a : AppSocket) : IoCall → ℤ
  | .read | .recvfrom | .recv => a.read_timeout
  | .connect | .write | .sendto | .send => a.write_timeout

/-- The call is on a descriptor that the application has. -/
def HookHeld (s : SysHook) : HookCall → Prop
  | .socket .. => True
  | .accept owner fd _ | .ioctl owner fd _ | .fcntl owner fd _ | .setsockopt owner fd _
  | .io owner fd _ | .close owner fd => (s.app owner fd).isSome

/-- The call is executed by the stack of its descriptor, and waits where it should. -/
def HookRight (s : SysHook) : HookCall → Prop
  | .socket domain type ret => ∀ fd ∈ s.fresh (SysHook.ffHookSocket domain type) ret,
      (s.socketOpened domain type fd).ffHook fd = SysHook.ffHookSocket domain type
  | .accept owner fd _ => ∀ a ∈ s.app owner fd,
      s.outcome fd (s.accept fd) = (owner, AppSocket.expects a a.read_timeout)
  | .ioctl owner fd _ => s.ffHook fd = owner
  | .fcntl owner fd _ => s.hookedOr fd = owner
  | .setsockopt owner fd _ => s.hookedOr fd = owner
  | .io owner fd call => ∀ a ∈ s.app owner fd,
      s.outcome fd (call.dispatch s fd) = (owner, AppSocket.expects a (ioTimeout a call))
  | .close owner fd => s.ffHook fd = owner

/-- The new number is not one that the other stack has in use for the application. -/
def NoClash (s : SysHook) (fd : ℕ) : NetStack → Prop
  | .kernel => s.openFd .fstack fd = false
  | .fstack => s.app .kernel fd = none

/-- The timeout fits an `int`. -/
def TimeoutFits : SockOpt → Prop
  | .rcvtimeo val | .sndtimeo val => -2 ^ 31 ≤ val.ms ∧ val.ms < 2 ^ 31
  | .other => True

/-- A condition on the state before a call under which the call is right. -/
def HookSafe (s : SysHook) : HookCall → Prop
  | .socket domain type ret => ∀ fd ∈ s.fresh (SysHook.ffHookSocket domain type) ret,
      NoClash s fd (SysHook.ffHookSocket domain type)
  | .accept owner fd ret => (∀ a ∈ s.app owner fd, a.nonblocking = true) ∧
      ∀ new ∈ s.fresh (s.ffHook fd) ret, NoClash s new (s.ffHook fd)
  | .ioctl _ _ _ => True
  | .fcntl owner fd _ => (s.mtHookFindFd fd).isSome ∨ owner = .kernel
  | .setsockopt owner fd opt => ((s.mtHookFindFd fd).isSome ∨ owner = .kernel) ∧ TimeoutFits opt
  | .io owner fd _ => s.nonblock owner fd = true ∧ ((s.mtHookFindFd fd).isSome ∨ owner = .kernel) ∧
      (owner = .fstack ∨ ∀ a ∈ s.app owner fd, a.nonblocking = true)
  | .close _ _ => True

instance (s : SysHook) (c : HookCall) : Decidable (HookHeld s c) := by
  cases c <;> unfold HookHeld <;> infer_instance

instance (s : SysHook) (c : HookCall) : Decidable (HookRight s c) := by
  cases c <;> unfold HookRight <;> infer_instance

instance (s : SysHook) (fd : ℕ) (st : NetStack) : Decidable (NoClash s fd st) := by
  cases st <;> unfold NoClash <;> infer_instance

instance (opt : SockOpt) : Decidable (TimeoutFits opt) := by
  cases opt <;> unfold TimeoutFits <;> infer_instance

instance (s : SysHook) (c : HookCall) : Decidable (HookSafe s c) := by
  cases c <;> unfold HookSafe <;> infer_instance

/-- What holds between the calls of such a run. -/
structure HookInv (s : SysHook) : Prop where
  opened : ∀ st fd a, s.app st fd = some a → s.openFd st fd = true
  noClash : ∀ fd a, s.app .kernel fd = some a → s.openFd .fstack fd = false
  entry : ∀ st fd a e, s.app st fd = some a → s.mtHookFindFd fd = some e →
    e.read_timeout = a.read_timeout ∧ e.write_timeout = a.write_timeout ∧
      (s.nonblock st fd = true → e.unblock = a.nonblocking)
  nonblocking : ∀ st fd a, s.app st fd = some a → a.nonblocking = true → s.nonblock st fd = true
  owned : ∀ fd e, s.mtHookFindFd fd = some e → ∃ st a, s.app st fd = some a

section Table

variable {s : SysHook} {fd fd' : ℕ} {e : MtHookFd}

theorem mtHookFindFd_setTab_of_ne (h : fd' ≠ fd) :
    (s.setTab fd e).mtHookFindFd fd' = s.mtHookFindFd fd' := by
  unfold SysHook.setTab
  split
  · rfl
  · simp only [SysHook.mtHookFindFd, Function.update_of_ne h]

theorem mtHookFindFd_setTab_same : (s.setTab fd e).mtHookFindFd fd =
    if fd ≥ MT_HOOK_MAX_FD ∨ e.inuse = false then none else some e := by
  unfold SysHook.setTab
  by_cases hmax : fd ≥ MT_HOOK_MAX_FD
  · simp [SysHook.mtHookFindFd, hmax]
  · cases hin : e.inuse with
    | false => simp [SysHook.mtHookFindFd, hmax, hin]
    | true => simp [SysHook.mtHookFindFd, hmax, hin]

/-- An entry in use that is written is found. -/
theorem mtHookFindFd_setTab_inuse (hmax : fd < MT_HOOK_MAX_FD) (hin : e.inuse = true) :
    (s.setTab fd e).mtHookFindFd fd = some e := by
  rw [mtHookFindFd_setTab_same, if_neg]
  rintro (hge | hfalse)
  · omega
  · rw [hin] at hfalse
    cases hfalse

@[simp] theorem setTab_openFd : (s.setTab fd e).openFd = s.openFd := by
  unfold SysHook.setTab
  split
  · rfl
  · rfl

@[simp] theorem setTab_nonblock : (s.setTab fd e).nonblock = s.nonblock := by
  unfold SysHook.setTab
  split
  · rfl
  · rfl

@[simp] theorem setTab_app : (s.setTab fd e).app = s.app := by
  unfold SysHook.setTab
  split
  · rfl
  · rfl

/-- An entry that is found is in use. -/
theorem mtHookFindFd_some (h : s.mtHookFindFd fd = some e) :
    fd < MT_HOOK_MAX_FD ∧ e.inuse = true := by
  unfold SysHook.mtHookFindFd at h
  split at h
  · cases h
  · next hmax =>
    split at h
    · cases h
    · next hin =>
      cases h
      exact ⟨by omega, by simpa using hin⟩

/-- Only the stack of F-Stack's own numbers is asked. -/
theorem ffHook_congr {s' : SysHook} (h : s'.openFd = s.openFd) : s'.ffHook fd = s.ffHook fd := by
  unfold SysHook.ffHook SysHook.ffFdisused
  rw [h]

end Table

section Invariant

variable {s : SysHook} {st st' : NetStack} {fd : ℕ} {a a' : AppSocket} {e : MtHookFd}

/-- The number leads to the stack that made the descriptor. -/
theorem HookInv.ffHook_eq (h : HookInv s) (happ : s.app st fd = some a) : s.ffHook fd = st := by
  unfold SysHook.ffHook SysHook.ffFdisused
  cases st with
  | kernel => simp [h.noClash fd a happ]
  | fstack => simp [h.opened .fstack fd a happ]

theorem HookInv.owner_unique (h : HookInv s) (happ : s.app st fd = some a)
    (happ' : s.app st' fd = some a') : st' = st :=
  (h.ffHook_eq happ').symm.trans (h.ffHook_eq happ)

/-- A new number without a clash is nobody's. -/
theorem HookInv.app_eq_none (h : HookInv s) (hfree : s.openFd st fd = false)
    (hclash : NoClash s fd st) (st' : NetStack) : s.app st' fd = none := by
  cases happ : s.app st' fd with
  | none => rfl
  | some a =>
    have hopen := h.opened st' fd a happ
    cases st with
    | kernel =>
      cases st' with
      | kernel =>
        rw [hopen] at hfree
        cases hfree
      | fstack =>
        have hclash' : s.openFd .fstack fd = false := hclash
        rw [hopen] at hclash'
        cases hclash'
    | fstack =>
      cases st' with
      | kernel =>
        have hclash' : s.app .kernel fd = none := hclash
        rw [happ] at hclash'
        cases hclash'
      | fstack =>
        rw [hopen] at hfree
        cases hfree

theorem HookInv.find_eq_none (h : HookInv s) (hfree : s.openFd st fd = false)
    (hclash : NoClash s fd st) : s.mtHookFindFd fd = none := by
  cases hfind : s.mtHookFindFd fd with
  | none => rfl
  | some e =>
    obtain ⟨st', a, happ⟩ := h.owned fd e hfind
    rw [h.app_eq_none hfree hclash st'] at happ
    cases happ

/-- A descriptor is opened, and has no table entry. -/
theorem HookInv.openedInv (h : HookInv s) (hfree : s.openFd st fd = false)
    (hclash : NoClash s fd st) (nonblock : Bool) : HookInv (s.opened st fd nonblock) := by
  have hnone := h.find_eq_none hfree hclash
  refine ⟨?_, ?_, ?_, ?_, ?_⟩
  · intro st' fd' a happ
    by_cases heq : st' = st ∧ fd' = fd
    · obtain ⟨rfl, rfl⟩ := heq
      exact setAt_same _ _ _ _
    · simp only [SysHook.opened, setAt_of_ne heq] at happ ⊢
      exact h.opened st' fd' a happ
  · intro fd' a happ
    by_cases heq : .kernel = st ∧ fd' = fd
    · obtain ⟨rfl, rfl⟩ := heq
      have hne : ¬ (NetStack.fstack = .kernel ∧ fd' = fd') := by simp
      simp only [SysHook.opened, setAt_of_ne hne]
      exact hclash
    · simp only [SysHook.opened, setAt_of_ne heq] at happ ⊢
      by_cases heq' : .fstack = st ∧ fd' = fd
      · obtain ⟨rfl, rfl⟩ := heq'
        rw [h.app_eq_none hfree hclash] at happ
        cases happ
      · rw [setAt_of_ne heq']
        exact h.noClash fd' a happ
  · intro st' fd' a e happ hfind
    have hfind' : s.mtHookFindFd fd' = some e := hfind
    by_cases heq : st' = st ∧ fd' = fd
    · rw [heq.2, hnone] at hfind'
      cases hfind'
    · simp only [SysHook.opened, setAt_of_ne heq] at happ ⊢
      exact h.entry st' fd' a e happ hfind'
  · intro st' fd' a happ hmode
    by_cases heq : st' = st ∧ fd' = fd
    · obtain ⟨rfl, rfl⟩ := heq
      simp only [SysHook.opened, setAt_same, Option.some.injEq] at happ
      rw [← happ] at hmode
      cases hmode
    · simp only [SysHook.opened, setAt_of_ne heq] at happ ⊢
      exact h.nonblocking st' fd' a happ hmode
  · intro fd' e hfind
    have hfind' : s.mtHookFindFd fd' = some e := hfind
    obtain ⟨st', a, happ⟩ := h.owned fd' e hfind'
    by_cases heq : st' = st ∧ fd' = fd
    · rw [heq.2, hnone] at hfind'
      cases hfind'
    · exact ⟨st', a, by simpa only [SysHook.opened, setAt_of_ne heq] using happ⟩

/-- A call changes the mode, the table entry and the wishes for one descriptor. -/
theorem HookInv.update {t : SysHook} {w : AppSocket} {v : Bool} (h : HookInv s) (happ : s.app st fd = some a)
    (hopen : t.openFd = s.openFd) (happ' : t.app = setAt s.app st fd (some w))
    (hnonblock : t.nonblock = setAt s.nonblock st fd v)
    (hother : ∀ fd', fd' ≠ fd → t.mtHookFindFd fd' = s.mtHookFindFd fd')
    (hentry : ∀ e, t.mtHookFindFd fd = some e → e.read_timeout = w.read_timeout ∧
      e.write_timeout = w.write_timeout ∧ (v = true → e.unblock = w.nonblocking))
    (hmode : w.nonblocking = true → v = true) : HookInv t := by
  have hsome : ∀ st' fd' b, t.app st' fd' = some b → ∃ b', s.app st' fd' = some b' := by
    intro st' fd' b hb
    rw [happ'] at hb
    by_cases heq : st' = st ∧ fd' = fd
    · rw [heq.1, heq.2]
      exact ⟨a, happ⟩
    · rw [setAt_of_ne heq] at hb
      exact ⟨b, hb⟩
  constructor
  case opened =>
    intro st' fd' b hb
    obtain ⟨b', hb'⟩ := hsome st' fd' b hb
    rw [hopen]
    exact h.opened st' fd' b' hb'
  case noClash =>
    intro fd' b hb
    obtain ⟨b', hb'⟩ := hsome .kernel fd' b hb
    rw [hopen]
    exact h.noClash fd' b' hb'
  case entry =>
    intro st' fd' b e hb hfind
    by_cases heq : st' = st ∧ fd' = fd
    · obtain ⟨rfl, rfl⟩ := heq
      rw [happ', setAt_same, Option.some.injEq] at hb
      rw [hnonblock, setAt_same, ← hb]
      exact hentry e hfind
    · by_cases hfd : fd' = fd
      · -- the number has one owner
        obtain ⟨b', hb'⟩ := hsome st' fd' b hb
        rw [hfd] at hb'
        exact absurd ⟨h.owner_unique happ hb', hfd⟩ heq
      · rw [hother fd' hfd] at hfind
        rw [happ', setAt_of_ne heq] at hb
        rw [hnonblock, setAt_of_ne heq]
        exact h.entry st' fd' b e hb hfind
  case nonblocking =>
    intro st' fd' b hb hnb
    by_cases heq : st' = st ∧ fd' = fd
    · obtain ⟨rfl, rfl⟩ := heq
      rw [happ', setAt_same, Option.some.injEq] at hb
      rw [hnonblock, setAt_same]
      rw [← hb] at hnb
      exact hmode hnb
    · rw [happ', setAt_of_ne heq] at hb
      rw [hnonblock, setAt_of_ne heq]
      exact h.nonblocking st' fd' b hb hnb
  case owned =>
    intro fd' e hfind
    by_cases hfd : fd' = fd
    · refine ⟨st, w, ?_⟩
      rw [happ', hfd, setAt_same]
    · rw [hother fd' hfd] at hfind
      obtain ⟨st', b, hb⟩ := h.owned fd' e hfind
      refine ⟨st', b, ?_⟩
      rw [happ', setAt_of_ne fun heq => hfd heq.2]
      exact hb

theorem setAt_self {α : Type} (f : NetStack → ℕ → α) (st : NetStack) (fd : ℕ) :
    setAt f st fd (f st fd) = f := by
  funext st' fd'
  by_cases heq : st' = st ∧ fd' = fd
  · rw [heq.1, heq.2, setAt_same]
  · exact setAt_of_ne heq

/-- A new socket gets its table entry, and its mode is set. -/
theorem HookInv.registered (h : HookInv s) (happ : s.app st fd = some ⟨false, 500, 500⟩) :
    HookInv ((s.mtHookNewFd fd).setNonblock st fd true) := by
  refine h.update (w := ⟨false, 500, 500⟩) (v := true) happ ?_ ?_ ?_ ?_ ?_ (fun _ => rfl)
  · exact setTab_openFd
  · rw [← happ, setAt_self]
    exact setTab_app
  · simp only [SysHook.setNonblock, SysHook.mtHookNewFd, setTab_nonblock]
  · exact fun fd' hne => mtHookFindFd_setTab_of_ne hne
  · intro e hfind
    have hfind' : (s.mtHookNewFd fd).mtHookFindFd fd = some e := hfind
    unfold SysHook.mtHookNewFd at hfind'
    rw [mtHookFindFd_setTab_same] at hfind'
    split at hfind'
    · cases hfind'
    · cases hfind'
      exact ⟨rfl, rfl, fun _ => rfl⟩

/-- The mark of a hooked socket. -/
theorem markUnblock_find (hfind : s.mtHookFindFd fd = some e) :
    (s.markUnblock fd).mtHookFindFd fd = some { e with unblock := true } := by
  obtain ⟨hmax, hin⟩ := mtHookFindFd_some hfind
  unfold SysHook.markUnblock
  rw [hfind]
  exact mtHookFindFd_setTab_inuse hmax hin

theorem markUnblock_of_none (hfind : s.mtHookFindFd fd = none) : s.markUnblock fd = s := by
  unfold SysHook.markUnblock
  rw [hfind]

/-- The mark is all that changes. -/
theorem markUnblock_same : (s.markUnblock fd).openFd = s.openFd ∧
    (s.markUnblock fd).nonblock = s.nonblock ∧ (s.markUnblock fd).app = s.app ∧
    ∀ fd', fd' ≠ fd → (s.markUnblock fd).mtHookFindFd fd' = s.mtHookFindFd fd' := by
  unfold SysHook.markUnblock
  split
  · exact ⟨rfl, rfl, rfl, fun _ _ => rfl⟩
  · exact ⟨setTab_openFd, setTab_nonblock, setTab_app, fun _ hne => mtHookFindFd_setTab_of_ne hne⟩

/-- The mode is set, in the stack, in the table, and as the wish of the application. -/
theorem HookInv.modeSet (h : HookInv s) (happ : s.app st fd = some a) (v : Bool) :
    HookInv (((if v then s.markUnblock fd else s).setNonblock st fd v).asks st fd
      fun a => { a with nonblocking := v }) := by
  obtain ⟨hopen, hnonblock, hsame, hother⟩ := @markUnblock_same s fd
  refine h.update (w := { a with nonblocking := v }) (v := v) happ ?_ ?_ ?_ ?_ ?_ id
  · cases v with
    | false => rfl
    | true => exact hopen
  · cases v with
    | false => simp [SysHook.asks, SysHook.setNonblock, happ]
    | true => simp [SysHook.asks, SysHook.setNonblock, hsame, happ]
  · cases v with
    | false => rfl
    | true => simp [SysHook.asks, SysHook.setNonblock, hnonblock]
  · cases v with
    | false => exact fun _ _ => rfl
    | true => exact hother
  · intro e hfind
    cases v with
    | false =>
      have hfind' : s.mtHookFindFd fd = some e := hfind
      obtain ⟨hread, hwrite, -⟩ := h.entry st fd a e happ hfind'
      exact ⟨hread, hwrite, fun hfalse => by cases hfalse⟩
    | true =>
      have hfind' : (s.markUnblock fd).mtHookFindFd fd = some e := hfind
      cases hold : s.mtHookFindFd fd with
      | none =>
        rw [markUnblock_of_none hold, hold] at hfind'
        cases hfind'
      | some e' =>
        rw [markUnblock_find hold, Option.some.injEq] at hfind'
        obtain ⟨hread, hwrite, -⟩ := h.entry st fd a e' happ hold
        rw [← hfind']
        exact ⟨hread, hwrite, fun _ => rfl⟩

theorem toInt32_eq {v : ℤ} (hlow : -2 ^ 31 ≤ v) (hhigh : v < 2 ^ 31) : toInt32 v = v := by
  unfold toInt32
  omega

/-- The entry of the descriptor is all that changes. -/
theorem setsockopt_same (opt : SockOpt) : (s.setsockopt fd opt).openFd = s.openFd ∧
    (s.setsockopt fd opt).nonblock = s.nonblock ∧ (s.setsockopt fd opt).app = s.app ∧
    ∀ fd', fd' ≠ fd → (s.setsockopt fd opt).mtHookFindFd fd' = s.mtHookFindFd fd' := by
  unfold SysHook.setsockopt
  split
  · exact ⟨rfl, rfl, rfl, fun _ _ => rfl⟩
  · cases opt with
    | rcvtimeo val =>
      exact ⟨setTab_openFd, setTab_nonblock, setTab_app, fun _ hne => mtHookFindFd_setTab_of_ne hne⟩
    | sndtimeo val =>
      exact ⟨setTab_openFd, setTab_nonblock, setTab_app, fun _ hne => mtHookFindFd_setTab_of_ne hne⟩
    | other => exact ⟨rfl, rfl, rfl, fun _ _ => rfl⟩

/-- A timeout is set. -/
theorem HookInv.optionSet (h : HookInv s) (happ : s.app st fd = some a) {opt : SockOpt}
    (hfits : TimeoutFits opt) : HookInv ((s.setsockopt fd opt).asks st fd opt.apply) := by
  obtain ⟨hopen, hnonblock, happ', hother⟩ := @setsockopt_same s fd opt
  have hmode : (opt.apply a).nonblocking = a.nonblocking := by
    cases opt with
    | rcvtimeo val => rfl
    | sndtimeo val => rfl
    | other => rfl
  refine h.update (w := opt.apply a) (v := s.nonblock st fd) happ hopen ?_ ?_ hother ?_ ?_
  · simp [SysHook.asks, happ', happ]
  · rw [setAt_self]
    exact hnonblock
  · intro e hfind
    have hfind' : (s.setsockopt fd opt).mtHookFindFd fd = some e := hfind
    cases hold : s.mtHookFindFd fd with
    | none =>
      unfold SysHook.setsockopt at hfind'
      rw [hold] at hfind'
      dsimp only at hfind'
      rw [hold] at hfind'
      cases hfind'
    | some e' =>
      obtain ⟨hread, hwrite, hmark⟩ := h.entry st fd a e' happ hold
      obtain ⟨hmax, hin⟩ := mtHookFindFd_some hold
      unfold SysHook.setsockopt at hfind'
      rw [hold] at hfind'
      cases opt with
      | rcvtimeo val =>
        have heq := (mtHookFindFd_setTab_inuse
          (e := { e' with read_timeout := toInt32 val.ms }) hmax hin).symm.trans hfind'
        rw [Option.some.injEq] at heq
        rw [← heq]
        exact ⟨toInt32_eq hfits.1 hfits.2, hwrite, hmark⟩
      | sndtimeo val =>
        have heq := (mtHookFindFd_setTab_inuse
          (e := { e' with write_timeout := toInt32 val.ms }) hmax hin).symm.trans hfind'
        rw [Option.some.injEq] at heq
        rw [← heq]
        exact ⟨hread, toInt32_eq hfits.1 hfits.2, hmark⟩
      | other =>
        dsimp only at hfind'
        rw [hold, Option.some.injEq] at hfind'
        rw [← hfind']
        exact ⟨hread, hwrite, hmark⟩
  · rw [hmode]
    exact h.nonblocking st fd a happ

/-- A descriptor is closed. -/
theorem HookInv.closed (h : HookInv s) (happ : s.app st fd = some a) :
    HookInv ((s.close fd).drops st fd) := by
  have hffHook := h.ffHook_eq happ
  have hclosed : (s.mtHookFreeFd fd).ffHook fd = st := (ffHook_congr setTab_openFd).trans hffHook
  have happ' : ((s.close fd).drops st fd).app = setAt s.app st fd none := by
    simp only [SysHook.drops, SysHook.close, SysHook.mtHookFreeFd, setTab_app]
  have hopen : ((s.close fd).drops st fd).openFd = setAt s.openFd st fd false := by
    simp only [SysHook.drops, SysHook.close, hclosed]
    simp only [SysHook.mtHookFreeFd, setTab_openFd]
  have hnonblock : ((s.close fd).drops st fd).nonblock = s.nonblock := setTab_nonblock
  have hfind : ∀ fd', ((s.close fd).drops st fd).mtHookFindFd fd' =
      (s.mtHookFreeFd fd).mtHookFindFd fd' := fun _ => rfl
  have hgone : (s.mtHookFreeFd fd).mtHookFindFd fd = none := by
    unfold SysHook.mtHookFreeFd
    rw [mtHookFindFd_setTab_same, if_pos (.inr rfl)]
  have hkept : ∀ st' fd' b, ((s.close fd).drops st fd).app st' fd' = some b →
      ¬ (st' = st ∧ fd' = fd) ∧ s.app st' fd' = some b := by
    intro st' fd' b hb
    rw [happ'] at hb
    by_cases heq : st' = st ∧ fd' = fd
    · rw [heq.1, heq.2, setAt_same] at hb
      cases hb
    · rw [setAt_of_ne heq] at hb
      exact ⟨heq, hb⟩
  constructor
  case opened =>
    intro st' fd' b hb
    obtain ⟨hne, hb'⟩ := hkept st' fd' b hb
    rw [hopen, setAt_of_ne hne]
    exact h.opened st' fd' b hb'
  case noClash =>
    intro fd' b hb
    obtain ⟨hne, hb'⟩ := hkept .kernel fd' b hb
    rw [hopen]
    by_cases heq : .fstack = st ∧ fd' = fd
    · rw [← heq.1, heq.2, setAt_same]
    · rw [setAt_of_ne heq]
      exact h.noClash fd' b hb'
  case entry =>
    intro st' fd' b e hb he
    obtain ⟨hne, hb'⟩ := hkept st' fd' b hb
    rw [hfind] at he
    by_cases hfd : fd' = fd
    · rw [hfd, hgone] at he
      cases he
    · rw [SysHook.mtHookFreeFd, mtHookFindFd_setTab_of_ne hfd] at he
      rw [hnonblock]
      exact h.entry st' fd' b e hb' he
  case nonblocking =>
    intro st' fd' b hb hmode
    obtain ⟨-, hb'⟩ := hkept st' fd' b hb
    rw [hnonblock]
    exact h.nonblocking st' fd' b hb' hmode
  case owned =>
    intro fd' e he
    rw [hfind] at he
    by_cases hfd : fd' = fd
    · rw [hfd, hgone] at he
      cases he
    · rw [SysHook.mtHookFreeFd, mtHookFindFd_setTab_of_ne hfd] at he
      obtain ⟨st', b, hb⟩ := h.owned fd' e he
      refine ⟨st', b, ?_⟩
      rw [happ', setAt_of_ne fun heq => hfd heq.2]
      exact hb

end Invariant

section Steps

variable {s : SysHook} {st : NetStack} {fd : ℕ} {a : AppSocket}

theorem fresh_some {ret : Option ℕ} (h : s.fresh st ret = some fd) : s.openFd st fd = false := by
  unfold SysHook.fresh at h
  split at h
  · cases h
  · split at h
    · cases h
    · next hfree =>
      cases h
      exact Bool.eq_false_iff.mpr hfree

/-- Where hooked sockets are asked for first, the descriptor's stack is found too. -/
theorem HookInv.hookedOr_eq (h : HookInv s) (happ : s.app st fd = some a)
    (hsafe : (s.mtHookFindFd fd).isSome ∨ st = .kernel) : s.hookedOr fd = st := by
  unfold SysHook.hookedOr
  cases hfind : s.mtHookFindFd fd with
  | some e => exact h.ffHook_eq happ
  | none =>
    rw [hfind] at hsafe
    rcases hsafe with hsome | hkernel
    · cases hsome
    · exact hkernel.symm

/-- The new socket is its stack's, also to `ff_fdisused`. -/
theorem HookInv.socket_ffHook (h : HookInv s) {domain type : ℕ}
    (hfree : s.openFd (SysHook.ffHookSocket domain type) fd = false)
    (hclash : NoClash s fd (SysHook.ffHookSocket domain type)) :
    (s.socketOpened domain type fd).ffHook fd = SysHook.ffHookSocket domain type := by
  have hopened := h.openedInv hfree hclash (decide (type &&& SysHook.SOCK_NONBLOCK ≠ 0))
  refine Eq.trans (ffHook_congr setTab_openFd) (hopened.ffHook_eq (a := ⟨false, 500, 500⟩) ?_)
  exact setAt_same _ _ _ _

/-- A safe call keeps the invariant. -/
theorem HookInv.step (h : HookInv s) {c : HookCall} (hheld : HookHeld s c) (hsafe : HookSafe s c) :
    HookInv (hookStep s c) := by
  cases c with
  | socket domain type ret =>
    change HookInv (s.socket domain type ret)
    unfold SysHook.socket
    cases hfresh : s.fresh (SysHook.ffHookSocket domain type) ret with
    | none => exact h
    | some fd =>
      have hfree := fresh_some hfresh
      have hclash := hsafe fd hfresh
      have hopened := h.openedInv hfree hclash (decide (type &&& SysHook.SOCK_NONBLOCK ≠ 0))
      have hstack := h.socket_ffHook hfree hclash
      dsimp only
      rw [hstack]
      exact hopened.registered (setAt_same _ _ _ _)
  | accept owner fd ret =>
    change HookInv (s.accepted fd ret)
    unfold SysHook.accepted
    cases hfresh : s.fresh (s.ffHook fd) ret with
    | none => exact h
    | some new => exact h.openedInv (fresh_some hfresh) (hsafe.2 new hfresh) _
  | ioctl owner fd fionbio =>
    obtain ⟨a, happ⟩ := Option.isSome_iff_exists.mp hheld
    have hstack : (if fionbio ≠ 0 then s.markUnblock fd else s).ffHook fd = owner := by
      split
      · exact (ffHook_congr markUnblock_same.1).trans (h.ffHook_eq happ)
      · exact h.ffHook_eq happ
    have hmode := h.modeSet happ (decide (fionbio ≠ 0))
    unfold hookStep SysHook.ioctl
    dsimp only
    rw [hstack]
    simpa only [decide_eq_true_eq] using hmode
  | fcntl owner fd o_nonblock =>
    obtain ⟨a, happ⟩ := Option.isSome_iff_exists.mp hheld
    have hstack := h.hookedOr_eq happ hsafe
    unfold hookStep SysHook.fcntl
    dsimp only
    rw [hstack]
    exact h.modeSet happ o_nonblock
  | setsockopt owner fd opt =>
    obtain ⟨a, happ⟩ := Option.isSome_iff_exists.mp hheld
    exact h.optionSet happ hsafe.2
  | io owner fd call => exact h
  | close owner fd =>
    obtain ⟨a, happ⟩ := Option.isSome_iff_exists.mp hheld
    exact h.closed happ

/-- A call that is passed on once, to a non-blocking descriptor. -/
theorem outcome_once (hmode : s.nonblock st fd = true) :
    s.outcome fd (.once st) = (st, .immediate) := by
  simp only [SysHook.outcome, hmode, if_true]

/-- The calls that transfer data, with the timeout that their table entry has for them. -/
theorem io_right (h : HookInv s) (happ : s.app st fd = some a) (hmode : s.nonblock st fd = true)
    (hfound : (s.mtHookFindFd fd).isSome ∨ st = .kernel) (hblocks : st = .fstack ∨ a.nonblocking = true)
    (waitsFirst : Bool) {timeout : MtHookFd → ℤ} {t : ℤ} (ht : ∀ e, s.mtHookFindFd fd = some e → timeout e = t) :
    s.outcome fd (hookedCall waitsFirst timeout s fd) = (st, AppSocket.expects a t) := by
  unfold hookedCall AppSocket.expects
  cases hfind : s.mtHookFindFd fd with
  | none =>
    rw [hfind] at hfound
    rcases hfound with hsome | rfl
    · cases hsome
    · have hnb := hblocks.resolve_left (by decide)
      rw [hnb]
      exact outcome_once hmode
  | some e =>
    obtain ⟨-, -, hmark⟩ := h.entry st fd a e happ hfind
    dsimp only
    rw [h.ffHook_eq happ, hmark hmode, ht e hfind]
    cases hnb : a.nonblocking with
    | true => exact outcome_once hmode
    | false =>
      -- only `MtFrame` waits, and it can wait for an F-Stack socket only
      obtain rfl : st = .fstack := hblocks.resolve_right (by rw [hnb]; decide)
      simp only [SysHook.outcome, hmode, Bool.not_true, Bool.and_false, Bool.false_eq_true, if_false, if_true]

/-- A safe call is right. -/
theorem HookInv.right (h : HookInv s) {c : HookCall} (hheld : HookHeld s c) (hsafe : HookSafe s c) :
    HookRight s c := by
  cases c with
  | socket domain type ret =>
    intro fd hfresh
    exact h.socket_ffHook (fresh_some hfresh) (hsafe fd hfresh)
  | accept owner fd ret =>
    intro a happ
    have hnb := hsafe.1 a happ
    unfold SysHook.accept AppSocket.expects
    rw [h.ffHook_eq happ, hnb]
    exact outcome_once (h.nonblocking owner fd a happ hnb)
  | ioctl owner fd fionbio =>
    obtain ⟨a, happ⟩ := Option.isSome_iff_exists.mp hheld
    exact h.ffHook_eq happ
  | fcntl owner fd o_nonblock =>
    obtain ⟨a, happ⟩ := Option.isSome_iff_exists.mp hheld
    exact h.hookedOr_eq happ hsafe
  | setsockopt owner fd opt =>
    obtain ⟨a, happ⟩ := Option.isSome_iff_exists.mp hheld
    exact h.hookedOr_eq happ hsafe.1
  | io owner fd call =>
    intro a happ
    obtain ⟨hmode, hfound, hblocks⟩ := hsafe
    have hblocks' : owner = .fstack ∨ a.nonblocking = true := hblocks.imp_right fun hall => hall a happ
    have hread := fun e he => (h.entry owner fd a e happ he).1
    have hwrite := fun e he => (h.entry owner fd a e happ he).2.1
    cases call with
    | read => exact io_right h happ hmode hfound hblocks' _ hread
    | recvfrom => exact io_right h happ hmode hfound hblocks' _ hread
    | recv => exact io_right h happ hmode hfound hblocks' _ hread
    | connect => exact io_right h happ hmode hfound hblocks' _ hwrite
    | write => exact io_right h happ hmode hfound hblocks' _ hwrite
    | sendto => exact io_right h happ hmode hfound hblocks' _ hwrite
    | send => exact io_right h happ hmode hfound hblocks' _ hwrite
  | close owner fd =>
    obtain ⟨a, happ⟩ := Option.isSome_iff_exists.mp hheld
    exact h.ffHook_eq happ

theorem hookInv_start (openFd nonblock : NetStack → ℕ → Bool) :
    HookInv (SysHook.start openFd nonblock) := by
  have hfind : ∀ fd, (SysHook.start openFd nonblock).mtHookFindFd fd = none := by
    intro fd
    unfold SysHook.mtHookFindFd
    split
    · rfl
    · rfl
  refine ⟨?_, ?_, ?_, ?_, ?_⟩
  · intro st fd a happ
    cases happ
  · intro fd a happ
    cases happ
  · intro st fd a e happ
    cases happ
  · intro st fd a happ
    cases happ
  · intro fd e he
    rw [hfind fd] at he
    cases he

end Steps

/-- In a run in which every call is on a descriptor that the application has and meets the condition,
every call is right. -/
theorem hookRight_of_safe (openFd nonblock : NetStack → ℕ → Bool) (calls : List HookCall)
    (h : AllSteps hookStep (fun s c => HookHeld s c ∧ HookSafe s c)
      (SysHook.start openFd nonblock) calls) :
    AllSteps hookStep HookRight (SysHook.start openFd nonblock) calls :=
  h.imp (I := HookInv) (fun _ _ hinv hc => hinv.step hc.1 hc.2) (fun _ _ hinv hc => hinv.right hc.1 hc.2)
    (hookInv_start openFd nonblock)

/-- No descriptor is open yet. -/
def noSockets : SysHook := .start (fun _ _ => false) fun _ _ => false

/-- An F-Stack socket with a timeout, and a kernel socket that is made non-blocking. -/
def twoSockets : List HookCall :=
  [.socket 2 1 (some 1024), .setsockopt .fstack 1024 (.rcvtimeo ⟨2, 500000⟩), .io .fstack 1024 .connect,
    .io .fstack 1024 .read, .socket 10 1 (some 7), .fcntl .kernel 7 true, .io .kernel 7 .send,
    .close .fstack 1024, .close .kernel 7]

theorem hookRight_twoSockets : AllSteps hookStep HookRight noSockets twoSockets :=
  hookRight_of_safe _ _ _ (by decide)

/-- A connection is accepted on a non-blocking F-Stack socket and read from. -/
def acceptAndRead : List HookCall :=
  [.socket 2 1 (some 1024), .fcntl .fstack 1024 true, .accept .fstack 1024 (some 1025),
    .io .fstack 1025 .read]

theorem not_hookRight_accept : AllSteps hookStep HookHeld noSockets acceptAndRead ∧
    ¬ AllSteps hookStep HookRight noSockets acceptAndRead := by
  decide

end FStack.Analysis
