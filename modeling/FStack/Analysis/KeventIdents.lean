import FStack.Model.KeventHook

/-!
# Identifiers of events go to F-Stack and back

The identifiers of all events get `ff_kernel_max_fd` added, and only those of descriptor filters had it
subtracted, so the round trip holds for descriptors of F-Stack with a descriptor filter and for nothing else
(`replyKevent_requestKevent_iff`).  The loop also adds it to the entries that F-Stack has not written.
-/

set_option autoImplicit false

namespace FStack.Analysis

open FStack.Model

variable {α : Type}

/-- What F-Stack reports of registrations of the application: it knows them by the identifiers it was given. -/
def fstackEvents (max : KernelMaxFd) (reported : List (HookKevent α)) : List (HookKevent α) :=
  keventChangelist max reported

/-- The application finds the events that are reported, with the identifiers under which it has registered them,
in the first entries of its list, as many as are returned and as fit, and the other entries as they were. -/
def KeventReplyRight (max : KernelMaxFd) (eventlist reported : List (HookKevent α)) : Prop :=
  keventReply max eventlist (.events (fstackEvents max reported)) =
    (reported.take eventlist.length ++ eventlist.drop (reported.take eventlist.length).length,
      ((reported.take eventlist.length).length : ℤ))

instance [DecidableEq α] (max : KernelMaxFd) (eventlist reported : List (HookKevent α)) :
    Decidable (KeventReplyRight max eventlist reported) :=
  inferInstanceAs (Decidable (_ = _))

/-- A registration whose identifier comes back: a descriptor of F-Stack, with a filter for descriptors. -/
def IdentSafe (max : KernelMaxFd) (kev : HookKevent α) : Prop :=
  isFdFilter kev.filter ∧ max.fd ≤ kev.ident.toNat ∧ kev.ident.toNat < 2 ^ 31

/-- No event is returned; or all that are returned are safe, and they fill the list. -/
def KeventReplySafe (max : KernelMaxFd) (eventlist reported : List (HookKevent α)) : Prop :=
  reported = [] ∨ eventlist = [] ∨
    eventlist.length ≤ reported.length ∧ ∀ kev ∈ reported.take eventlist.length, IdentSafe max kev

/-! ## One identifier -/

/-- INTERNAL: `int32` is the identity on an `int`. -/
theorem int32_of_range {x : ℤ} (hlow : -2 ^ 31 ≤ x) (hhigh : x < 2 ^ 31) : int32 x = x :=
  Int.bmod_eq_of_le (by omega) (by omega)

/-- INTERNAL: What `int32` keeps. -/
theorem int32_emod (x : ℤ) : int32 x % 2 ^ 32 = x % 2 ^ 32 := Int.bmod_emod

/-- INTERNAL: An `int` comes back from an identifier. -/
theorem identToInt_intToIdent (fd : ℤ) : identToInt (intToIdent fd) = int32 fd := by
  rw [identToInt, intToIdent, BitVec.toNat_ofInt, int32, int32]
  have hmod : ((fd % ((2 ^ 64 : ℕ) : ℤ)).toNat : ℤ) = fd % 2 ^ 64 := by omega
  rw [hmod]
  have hlow : (fd % 2 ^ 64) % ((2 ^ 32 : ℕ) : ℤ) = fd % ((2 ^ 32 : ℕ) : ℤ) := by omega
  rw [← Int.emod_bmod, hlow, Int.emod_bmod]

/-- INTERNAL: When an `int` is stored as the identifier it was read from. -/
theorem intToIdent_eq_iff (fd : ℤ) (ident : BitVec 64) :
    intToIdent fd = ident ↔ (ident.toNat : ℤ) = fd % 2 ^ 64 := by
  rw [← BitVec.toNat_inj, intToIdent, BitVec.toNat_ofInt]
  constructor <;> intro h <;> omega

/-- INTERNAL: Adding the limit changes every identifier. -/
theorem intToIdent_convert_ne (max : KernelMaxFd) {fd : ℤ} {ident : BitVec 64}
    (hfd : fd % 2 ^ 32 = (ident.toNat : ℤ) % 2 ^ 32) : intToIdent (convertFstackFd max fd) ≠ ident := by
  intro heq
  have hpos := max.pos
  have hlt := max.lt
  have hident : identToInt ident = int32 (convertFstackFd max fd) := by
    rw [← heq, identToInt_intToIdent]
  have hmod : identToInt ident % 2 ^ 32 = int32 (convertFstackFd max fd) % 2 ^ 32 := by rw [hident]
  rw [identToInt, convertFstackFd, int32_emod, int32_emod, int32_emod] at hmod
  omega

/-- **The round trip of one identifier.** -/
theorem replyKevent_requestKevent_iff (max : KernelMaxFd) (kev : HookKevent α) :
    replyKevent max (requestKevent max kev) = kev ↔ IdentSafe max kev := by
  have hpos := max.pos
  have hlt := max.lt
  have hrange : -2 ^ 31 ≤ identToInt kev.ident ∧ identToInt kev.ident < 2 ^ 31 := by
    have hlow := @Int.le_bmod (kev.ident.toNat : ℤ) (2 ^ 32) (by decide)
    have hhigh := @Int.bmod_lt (kev.ident.toNat : ℤ) (2 ^ 32) (by decide)
    rw [identToInt, int32]
    omega
  have hsame : identToInt kev.ident % 2 ^ 32 = (kev.ident.toNat : ℤ) % 2 ^ 32 := int32_emod _
  have hreply : ∀ ident : BitVec 64, replyKevent max { kev with ident := ident } = kev ↔
      intToIdent (convertFstackFd max (identToInt ident)) = kev.ident := by
    intro ident
    rw [replyKevent]
    constructor
    · intro h
      have hident := congrArg HookKevent.ident h
      dsimp only at hident
      exact hident
    · intro h
      dsimp only
      rw [h]
  rw [requestKevent, IdentSafe]
  by_cases hfilter : isFdFilter kev.filter
  · rw [if_pos hfilter, hreply, identToInt_intToIdent, restoreFstackFd]
    by_cases hkernel : identToInt kev.ident < max.fd
    · -- a descriptor of the kernel, which is passed as it is
      rw [if_pos hkernel]
      refine iff_of_false (intToIdent_convert_ne max ?_) ?_
      · rw [int32_emod]
        exact hsame
      · rintro ⟨-, hge, hsmall⟩
        have hident : identToInt kev.ident = kev.ident.toNat := int32_of_range (by omega) (by omega)
        omega
    · rw [if_neg hkernel]
      have hsub : int32 (int32 (identToInt kev.ident - max.fd)) = identToInt kev.ident - max.fd := by
        rw [int32_of_range (x := identToInt kev.ident - max.fd) (by omega) (by omega)]
        exact int32_of_range (by omega) (by omega)
      rw [hsub, convertFstackFd, Int.sub_add_cancel, int32_of_range hrange.1 hrange.2]
      rw [intToIdent_eq_iff]
      constructor
      · intro h
        exact ⟨hfilter, by omega, by omega⟩
      · rintro ⟨-, hge, hsmall⟩
        omega
  · rw [if_neg hfilter]
    refine iff_of_false ?_ fun h => hfilter h.1
    have hkev := hreply kev.ident
    rw [show ({ kev with ident := kev.ident } : HookKevent α) = kev from rfl] at hkev
    rw [hkev]
    exact intToIdent_convert_ne max hsame

/-- INTERNAL: The loop changes every entry that F-Stack has not written. -/
theorem replyKevent_ne (max : KernelMaxFd) (kev : HookKevent α) : replyKevent max kev ≠ kev := by
  intro h
  have hident := congrArg HookKevent.ident h
  rw [replyKevent] at hident
  dsimp only at hident
  exact intToIdent_convert_ne max (int32_emod _) hident

/-! ## The list -/

/-- INTERNAL: A function that keeps a list keeps each of its entries. -/
theorem map_eq_self_iff {β : Type} (f : β → β) (l : List β) : l.map f = l ↔ ∀ x ∈ l, f x = x := by
  have h := @List.map_inj_left β β l f id
  rw [List.map_id] at h
  exact h

/-- INTERNAL: The loop keeps the written entries if they are safe, and no others. -/
theorem reply_append_iff (max : KernelMaxFd) (returned rest : List (HookKevent α)) :
    (returned.map (requestKevent max) ++ rest).map (replyKevent max) = returned ++ rest ↔
      rest = [] ∧ ∀ kev ∈ returned, IdentSafe max kev := by
  rw [List.map_append, List.map_map]
  constructor
  · intro h
    obtain ⟨hreturned, hrest⟩ := List.append_inj h (List.length_map ..)
    rw [map_eq_self_iff] at hreturned hrest
    constructor
    · rw [List.eq_nil_iff_forall_not_mem]
      exact fun kev hkev => replyKevent_ne max kev (hrest kev hkev)
    · exact fun kev hkev => (replyKevent_requestKevent_iff max kev).mp (hreturned kev hkev)
  · rintro ⟨rfl, hsafe⟩
    rw [List.map_nil, List.append_nil, List.append_nil, map_eq_self_iff]
    exact fun kev hkev => (replyKevent_requestKevent_iff max kev).mpr (hsafe kev hkev)

/-- **When the events come back as they were registered**, and the rest of the list as it was. -/
theorem kevent_reply_right_iff (max : KernelMaxFd) (eventlist reported : List (HookKevent α)) :
    KeventReplyRight max eventlist reported ↔ KeventReplySafe max eventlist reported := by
  obtain ⟨returned, hreturned⟩ : ∃ l, l = reported.take eventlist.length := ⟨_, rfl⟩
  have hlist : (fstackEvents max reported).take eventlist.length = returned.map (requestKevent max) := by
    rw [fstackEvents, keventChangelist, ← List.map_take, hreturned]
  have hempty : returned = [] ↔ reported = [] ∨ eventlist = [] := by
    rw [hreturned, List.take_eq_nil_iff, List.length_eq_zero_iff]
    exact or_comm
  rw [KeventReplyRight, KeventReplySafe, keventReply, hlist, ← hreturned, List.length_map]
  by_cases hnone : returned = []
  · rw [hnone]
    refine iff_of_true rfl ?_
    rw [← or_assoc]
    exact .inl (hempty.mp hnone)
  · have hlen : returned.length ≠ 0 := fun h => hnone (List.length_eq_zero_iff.mp h)
    have hfull : eventlist.drop returned.length = [] ↔ eventlist.length ≤ reported.length := by
      rw [List.drop_eq_nil_iff, hreturned, List.length_take, Nat.le_min]
      exact and_iff_right (Nat.le_refl _)
    rw [if_neg hlen, Prod.mk.injEq, and_iff_left rfl, reply_append_iff, hfull, ← or_assoc]
    exact (or_iff_right fun h => hnone (hempty.mpr h)).symm

/-- A timer comes back with 1024 added to its identifier, and so does the entry behind it. -/
theorem not_kevent_reply_right :
    ¬∀ (max : KernelMaxFd) (eventlist reported : List (HookKevent Unit)),
      KeventReplyRight max eventlist reported := by
  intro h
  have hright := h ⟨1024, by decide, by decide⟩ [⟨5, EVFILT_READ, ()⟩, ⟨6, EVFILT_READ, ()⟩]
    [⟨7, EVFILT_TIMER, ()⟩]
  exact absurd hright (by decide)

end FStack.Analysis
