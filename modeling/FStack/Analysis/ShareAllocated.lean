import FStack.Model.ShareAlloc
import Mathlib.Data.List.Nodup
import Mathlib.Data.List.Perm.Basic
import Mathlib.Data.List.ReduceOption

/-!
# What a failing allocation gives back

When a buffer is refused, `iovec_share_alloc` frees as many entries as the array was meant to have, and behind the
one that was refused these are whatever the fresh block held.  `share_call_right_iff` says when the three allocators
free what they have allocated, and nothing else.
-/

set_option autoImplicit false

namespace FStack.Analysis

open FStack.Model

variable {size k : ℕ} {safe : Prop} {field : Option ℕ} {frees : List SharePtr}

/-- A call that returns `NULL` has freed the blocks that it has allocated, each of them once; the others have freed
nothing. -/
def ShareCallRight (h : ShareHeap) (c : ShareCall) : Prop :=
  if (h.shareCall c).2 = true then
    (h.shareCall c).1.freed.Perm (h.shareCall c).1.allocated ∧ (h.shareCall c).1.freed.Nodup
  else (h.shareCall c).1.freed = []

/-- The call number `k` of `share_mem_alloc` is granted. -/
def Granted (h : ShareHeap) (k size : ℕ) : Prop := size ≠ 0 ∧ h.grants k = true

instance (h : ShareHeap) (k size : ℕ) : Decidable (Granted h k size) := inferInstanceAs (Decidable (_ ∧ _))

/-- A field is granted, or the caller does not have it. -/
def FieldGranted (h : ShareHeap) (k : ℕ) : Option ℕ → Prop
  | none => True
  | some len => Granted h k len

instance (h : ShareHeap) (k : ℕ) : ∀ field, Decidable (FieldGranted h k field)
  | none => inferInstanceAs (Decidable True)
  | some _ => inferInstanceAs (Decidable (Granted _ _ _))

/-- The calls for a field. -/
def fieldCalls : Option ℕ → ℕ
  | none => 0
  | some _ => 1

/-- The array that would be the call number `k` is not granted, or it holds no pointer behind an entry that is
refused. -/
def ArraySafe (h : ShareHeap) (k : ℕ) (iov : Option (List ℕ)) (iovcnt : ℤ) : Prop :=
  ∀ lens, iov = some lens → iovcnt ≠ 0 → Granted h k ((16 * iovcnt) % 2 ^ 64).toNat →
    ∀ i j len, i < j → j < (lens.take iovcnt.toNat).length → (lens.take iovcnt.toNat)[i]? = some len →
      ¬Granted h (k + 1 + i) len → h.junk k j = none

/-- The same for a message, whose array is asked for when the name and the control message have been granted. -/
def MessageSafe (h : ShareHeap) (msg : CallerMsg) : Prop :=
  Granted h 0 56 → FieldGranted h 1 msg.msg_name →
    FieldGranted h (1 + fieldCalls msg.msg_name) msg.msg_control →
    ArraySafe h (1 + fieldCalls msg.msg_name + fieldCalls msg.msg_control) msg.msg_iov (int32 msg.msg_iovlen)

/-- No pointer that has not been stored is freed. -/
def ShareCallSafe (h : ShareHeap) : ShareCall → Prop
  | .iovecShareAlloc iov iovcnt => ArraySafe h 0 iov iovcnt
  | .iovecShareAllocS => True
  | .msghdrShareAlloc none => True
  | .msghdrShareAlloc (some msg) => MessageSafe h msg

/-- The pointers that `n` calls return from the call number `k` on. -/
def blocks (k n : ℕ) : List SharePtr := (List.range' k n).map (⟨·, 0⟩)

/-! ## What the calls add -/

/-- The heap after some more calls. -/
def ShareHeap.moved (h : ShareHeap) (calls : ℕ) (news frees : List SharePtr) : ShareHeap :=
  { h with calls := h.calls + calls, allocated := h.allocated ++ news, freed := h.freed ++ frees }

@[simp] theorem length_blocks (k n : ℕ) : (blocks k n).length = n := by
  rw [blocks, List.length_map, List.length_range']

@[simp] theorem blocks_zero (k : ℕ) : blocks k 0 = [] := rfl

theorem blocks_succ (k n : ℕ) : blocks k (n + 1) = ⟨k, 0⟩ :: blocks (k + 1) n := by
  rw [blocks, List.range'_succ]
  rfl

/-- Blocks that follow one another. -/
theorem blocks_append (k m n : ℕ) : blocks k m ++ blocks (k + m) n = blocks k (m + n) := by
  rw [blocks, blocks, ← List.map_append]
  have happend := @List.range'_append k m n 1
  rw [Nat.one_mul] at happend
  rw [happend, blocks]

theorem nodup_blocks (k n : ℕ) : (blocks k n).Nodup :=
  List.Nodup.map (fun _ _ heq => congrArg SharePtr.block heq) List.nodup_range'

/-- The call has allocated blocks that follow one another, and has freed nothing, or it returns `NULL` and what it
has freed are these blocks exactly when it is safe. -/
def Allocates (h h' : ShareHeap) (null : Bool) (safe : Prop) : Prop :=
  ∃ k n frees, h' = ShareHeap.moved h k (blocks h.calls n) frees ∧
    (null = false ∧ frees = [] ∧ safe ∨ null = true ∧ (frees.Perm (blocks h.calls n) ↔ safe))

section

variable (h : ShareHeap)

@[simp] theorem moved_moved (k k' : ℕ) (a a' f f' : List SharePtr) :
    ShareHeap.moved (ShareHeap.moved h k a f) k' a' f' = ShareHeap.moved h (k + k') (a ++ a') (f ++ f') := by
  simp [ShareHeap.moved, Nat.add_assoc]

@[simp] theorem moved_calls (k : ℕ) (a f : List SharePtr) : (ShareHeap.moved h k a f).calls = h.calls + k := rfl

@[simp] theorem moved_junk (k : ℕ) (a f : List SharePtr) : (ShareHeap.moved h k a f).junk = h.junk := rfl

@[simp] theorem granted_moved (k : ℕ) (a f : List SharePtr) (n size : ℕ) :
    Granted (ShareHeap.moved h k a f) n size ↔ Granted h n size := Iff.rfl

@[simp] theorem fieldGranted_moved (k : ℕ) (a f : List SharePtr) (n : ℕ) (field : Option ℕ) :
    FieldGranted (ShareHeap.moved h k a f) n field ↔ FieldGranted h n field := by
  cases field <;> rfl

@[simp] theorem arraySafe_moved (k : ℕ) (a f : List SharePtr) (n : ℕ) (iov : Option (List ℕ)) (iovcnt : ℤ) :
    ArraySafe (ShareHeap.moved h k a f) n iov iovcnt ↔ ArraySafe h n iov iovcnt := Iff.rfl

theorem shareMemAlloc_of_granted (hgranted : Granted h h.calls size) :
    h.shareMemAlloc size = (ShareHeap.moved h 1 [⟨h.calls, 0⟩] [], some ⟨h.calls, 0⟩) := by
  rw [Granted] at hgranted
  rw [ShareHeap.shareMemAlloc, if_pos hgranted, ShareHeap.moved, List.append_nil]

theorem shareMemAlloc_of_refused (hrefused : ¬Granted h h.calls size) :
    h.shareMemAlloc size = (ShareHeap.moved h 1 [] [], none) := by
  rw [Granted] at hrefused
  rw [ShareHeap.shareMemAlloc, if_neg hrefused, ShareHeap.moved, List.append_nil, List.append_nil]

theorem shareMemFree_eq (addr : SharePtr) : h.shareMemFree addr = ShareHeap.moved h 0 [] [addr] := by
  rw [ShareHeap.shareMemFree, ShareHeap.moved, List.append_nil, Nat.add_zero]

theorem shareMemFreeIf_eq (addr : Option SharePtr) :
    h.shareMemFreeIf addr = ShareHeap.moved h 0 [] addr.toList := by
  cases addr with
  | none => simp [ShareHeap.shareMemFreeIf, ShareHeap.moved]
  | some addr => exact shareMemFree_eq h addr

theorem iovecShareFree_eq (iov : SharePtr) (bases : List (Option SharePtr)) :
    h.iovecShareFree iov bases = ShareHeap.moved h 0 [] (bases.reduceOption ++ [iov]) := by
  rw [ShareHeap.iovecShareFree, shareMemFree_eq]
  have hfold : bases.foldl ShareHeap.shareMemFreeIf h = ShareHeap.moved h 0 [] bases.reduceOption := by
    induction bases generalizing h with
    | nil => simp [ShareHeap.moved]
    | cons base bases ih =>
      rw [List.foldl_cons, shareMemFreeIf_eq, ih, moved_moved]
      cases base with
      | none => rw [List.reduceOption_cons_of_none]; rfl
      | some base => rw [List.reduceOption_cons_of_some]; rfl
  rw [hfold, moved_moved]
  rfl

theorem moved_zero : ShareHeap.moved h 0 [] [] = h := by
  simp [ShareHeap.moved]

/-- A call that allocates and frees nothing. -/
theorem allocates_nothing (hsafe : safe) :
    Allocates h (ShareHeap.moved h k [] []) true safe :=
  ⟨k, 0, [], rfl, .inr ⟨rfl, ⟨fun _ => hsafe, fun _ => List.Perm.refl _⟩⟩⟩

theorem allocates_self (hsafe : safe) : Allocates h h true safe := by
  have hnothing := allocates_nothing h (k := 0) hsafe
  rwa [moved_zero] at hnothing

/-- The loop stores the bases of the entries before the first one that is refused. -/
theorem allocBases_spec (lens : List ℕ) :
    ∃ n k, n ≤ lens.length ∧
      h.allocBases lens = (ShareHeap.moved h k (blocks h.calls n) [], blocks h.calls n) ∧
      (∀ i len, i < n → lens[i]? = some len → Granted h (h.calls + i) len) ∧
      (n < lens.length → ∃ len, lens[n]? = some len ∧ ¬Granted h (h.calls + n) len) := by
  induction lens generalizing h with
  | nil =>
    refine ⟨0, 0, le_rfl, ?_, by simp, by simp⟩
    exact congrArg (fun heap => (heap, ([] : List SharePtr))) (moved_zero h).symm
  | cons iov_len lens ih =>
    by_cases hgranted : Granted h h.calls iov_len
    · obtain ⟨n, k, hn, heq, hbefore, hstop⟩ := ih (ShareHeap.moved h 1 [⟨h.calls, 0⟩] [])
      refine ⟨n + 1, 1 + k, by simpa using hn, ?_, ?_, ?_⟩
      · rw [ShareHeap.allocBases, shareMemAlloc_of_granted h hgranted]
        dsimp only
        rw [heq, moved_moved, moved_calls, blocks_succ]
        rfl
      · intro i len hi hlen
        cases i with
        | zero =>
          rw [List.getElem?_cons_zero, Option.some.injEq] at hlen
          rw [← hlen]
          exact hgranted
        | succ i =>
          rw [List.getElem?_cons_succ] at hlen
          have hi' := hbefore i len (by omega) hlen
          rw [granted_moved, moved_calls] at hi'
          rwa [Nat.add_comm i 1, ← Nat.add_assoc]
      · intro hlt
        obtain ⟨len, hlen, hrefused⟩ := hstop (by simpa using hlt)
        rw [granted_moved, moved_calls] at hrefused
        refine ⟨len, by simpa using hlen, ?_⟩
        rwa [Nat.add_comm n 1, ← Nat.add_assoc]
    · refine ⟨0, 1, Nat.zero_le _, ?_, by simp, fun _ => ⟨iov_len, rfl, hgranted⟩⟩
      rw [ShareHeap.allocBases, shareMemAlloc_of_refused h hgranted]
      rfl

/-- `allocField` stores a pointer if the caller has the field and it is granted. -/
theorem allocField_of_granted (hk : h.calls = k) (hgranted : FieldGranted h k field) :
    h.allocField field =
      (ShareHeap.moved h (fieldCalls field) (field.map fun _ => ⟨k, 0⟩).toList [],
        field.map fun _ => ⟨k, 0⟩, true) := by
  subst hk
  cases field with
  | none => simp [ShareHeap.allocField, fieldCalls, ShareHeap.moved]
  | some len =>
    rw [ShareHeap.allocField, shareMemAlloc_of_granted h hgranted]
    rfl

theorem allocField_of_refused (hk : h.calls = k) (hrefused : ¬FieldGranted h k field) :
    h.allocField field = (ShareHeap.moved h 1 [] [], none, false) := by
  subst hk
  cases field with
  | none => exact absurd trivial hrefused
  | some len => rw [ShareHeap.allocField, shareMemAlloc_of_refused h hrefused]

end

/-! ## Arrays -/

/-- Pointers that are all there. -/
theorem reduceOption_map_some (bases : List SharePtr) : (bases.map some).reduceOption = bases := by
  rw [List.reduceOption, List.filterMap_map]
  exact List.filterMap_some

/-- What is freed from a list of bases behind which there is junk. -/
theorem perm_partlyFilled (bases junk : List SharePtr) (iov : SharePtr) :
    (bases ++ junk ++ [iov]).Perm (iov :: bases) ↔ junk = [] := by
  refine ⟨fun hperm => ?_, fun hjunk => ?_⟩
  · have hlength := hperm.length_eq
    simp only [List.length_append, List.length_cons, List.length_nil] at hlength
    exact List.length_eq_zero_iff.mp (by omega)
  · rw [hjunk, List.append_nil]
    exact List.perm_append_singleton iov bases

/-- The pointers of an array of which some entries have been stored. -/
theorem reduceOption_partlyFilled (h : ShareHeap) (block : ℕ) (bases : List SharePtr) (n : ℕ) :
    (h.partlyFilled block bases n).reduceOption =
      bases ++ ((List.range' (bases.length + 1) (n - (bases.length + 1))).map (h.junk block)).reduceOption := by
  rw [ShareHeap.partlyFilled, List.reduceOption_append, List.reduceOption_cons_of_none, reduceOption_map_some]

/-- There is no junk to be freed exactly when the entries behind the first one that is refused hold
none. -/
theorem reduceOption_junk_iff (h : ShareHeap) (block m k : ℕ) :
    ((List.range' m k).map (h.junk block)).reduceOption = [] ↔ ∀ j, m ≤ j → j < m + k → h.junk block j = none := by
  rw [List.reduceOption, List.filterMap_eq_nil_iff]
  simp only [List.mem_map, List.mem_range'_1, id_eq, forall_exists_index, and_imp]
  refine ⟨fun hall j hm hk => hall _ j hm hk rfl, fun hall p j hm hk heq => ?_⟩
  rw [← heq]
  exact hall j hm hk

section

variable (h : ShareHeap)

/-- **`iovec_share_alloc`** frees what it has allocated exactly when the array is safe. -/
theorem iovecShareAlloc_spec (iov : Option (List ℕ)) (iovcnt : ℤ) :
    Allocates h (h.iovecShareAlloc iov iovcnt).1 (h.iovecShareAlloc iov iovcnt).2.isNone
      (ArraySafe h h.calls iov iovcnt) := by
  unfold ShareHeap.iovecShareAlloc
  cases iov with
  | none =>
    dsimp only
    have hsafe : ArraySafe h h.calls none iovcnt := fun _ hlens => nomatch hlens
    exact allocates_self h hsafe
  | some lens =>
    dsimp only
    by_cases hzero : iovcnt = 0
    · rw [if_pos hzero]
      have hsafe : ArraySafe h h.calls (some lens) iovcnt := fun _ _ hcnt => absurd hzero hcnt
      exact allocates_self h hsafe
    rw [if_neg hzero]
    by_cases hgranted : Granted h h.calls ((16 * iovcnt) % 2 ^ 64).toNat
    swap
    · rw [shareMemAlloc_of_refused h hgranted]
      exact allocates_nothing h fun _ _ _ hg => absurd hg hgranted
    rw [shareMemAlloc_of_granted h hgranted]
    dsimp only
    obtain ⟨n, k, hn, heq, hbefore, hstop⟩ :=
      allocBases_spec (ShareHeap.moved h 1 [⟨h.calls, 0⟩] []) (lens.take iovcnt.toNat)
    rw [heq]
    simp only [granted_moved, moved_calls, moved_moved, List.append_nil, length_blocks] at hbefore hstop ⊢
    rw [List.singleton_append, ← blocks_succ]
    by_cases hall : n = (lens.take iovcnt.toNat).length
    · rw [if_pos hall]
      refine ⟨1 + k, n + 1, [], rfl, .inl ⟨rfl, rfl, ?_⟩⟩
      rintro lens' hlens - - i j len hij hj hlen hrefused
      cases hlens
      exact absurd (hbefore i len (by omega) hlen) hrefused
    · rw [if_neg hall]
      dsimp only
      rw [iovecShareFree_eq, reduceOption_partlyFilled, moved_moved, length_blocks, moved_junk, List.append_nil,
        List.nil_append, Nat.add_zero]
      refine ⟨1 + k, n + 1, _, rfl, .inr ⟨rfl, ?_⟩⟩
      rw [blocks_succ, perm_partlyFilled, reduceOption_junk_iff]
      obtain ⟨refused, hrefused, hnot⟩ := hstop (by omega)
      constructor
      · rintro hjunk lens' hlens - - i j len hij hj hlen hi
        cases hlens
        -- the entry that is refused is not before the first one
        have hni : n ≤ i := by
          by_contra hlt
          exact hi (hbefore i len (by omega) hlen)
        exact hjunk j (by omega) (by omega)
      · intro hsafe j hj hlt
        exact hsafe lens rfl hzero hgranted n j refused (by omega) (by omega) hrefused hnot

/-- **`iovec_share_alloc_s`** frees what it has allocated. -/
theorem iovecShareAllocS_spec : Allocates h h.iovecShareAllocS.1 h.iovecShareAllocS.2.isNone True := by
  rw [ShareHeap.iovecShareAllocS]
  by_cases hgranted : Granted h h.calls (16 * IOV_MAX)
  swap
  · rw [shareMemAlloc_of_refused h hgranted]
    exact allocates_nothing h trivial
  rw [shareMemAlloc_of_granted h hgranted]
  dsimp only
  obtain ⟨n, k, -, heq, -, -⟩ :=
    allocBases_spec (ShareHeap.moved h 1 [⟨h.calls, 0⟩] []) (List.replicate IOV_MAX IOV_LEN_MAX)
  rw [heq, moved_calls, moved_moved, List.append_nil, List.singleton_append, ← blocks_succ]
  dsimp only
  split
  · exact ⟨1 + k, n + 1, [], rfl, .inl ⟨rfl, rfl, trivial⟩⟩
  · rw [iovecShareFree_eq, moved_moved, reduceOption_map_some, List.append_nil, List.nil_append, Nat.add_zero]
    refine ⟨1 + k, n + 1, _, rfl, .inr ⟨rfl, ⟨fun _ => trivial, fun _ => ?_⟩⟩⟩
    rw [blocks_succ]
    exact List.perm_append_singleton _ _

/-! ## Messages -/

/-- What `msghdr_share_free` frees of a message whose array has not been allocated. -/
theorem msghdrShareFree_eq (hdr : SharePtr) (msg_name msg_control : Option SharePtr) :
    h.msghdrShareFree ⟨hdr, msg_name, none, msg_control⟩ =
      ShareHeap.moved h 0 [] (msg_name.toList ++ msg_control.toList ++ [hdr]) := by
  rw [ShareHeap.msghdrShareFree]
  dsimp only
  rw [shareMemFreeIf_eq, shareMemFreeIf_eq, shareMemFree_eq, moved_moved, moved_moved, List.append_assoc]
  rfl

/-- The pointer of a field has the number of its call. -/
theorem fieldPtr_toList (field : Option ℕ) (k : ℕ) :
    (field.map fun _ => (⟨k, 0⟩ : SharePtr)).toList = blocks k (fieldCalls field) := by
  cases field with
  | none => rfl
  | some len => rfl

/-- The header goes back last and the array first. -/
theorem perm_fields {fields news : List SharePtr} {hdr : SharePtr} :
    (frees ++ (fields ++ [hdr])).Perm (hdr :: fields ++ news) ↔ frees.Perm news := by
  have hfields : (fields ++ [hdr]).Perm (hdr :: fields) := List.perm_append_singleton hdr fields
  have hleft : (frees ++ (fields ++ [hdr])).Perm (hdr :: fields ++ frees) :=
    (hfields.append_left frees).trans List.perm_append_comm
  exact ⟨fun hperm => (List.perm_append_left_iff _).mp (hleft.symm.trans hperm),
    fun hperm => hleft.trans (hperm.append_left _)⟩

/-- A message that fails after its header and `m` fields have been allocated. -/
theorem allocates_message (hcalls : h.calls = 0) {m n : ℕ} (hiff : frees.Perm (blocks (1 + m) n) ↔ safe) :
    Allocates h (ShareHeap.moved h k (⟨0, 0⟩ :: blocks 1 m ++ blocks (1 + m) n)
      (frees ++ (blocks 1 m ++ [⟨0, 0⟩]))) true safe := by
  have hnews : ⟨0, 0⟩ :: blocks 1 m ++ blocks (1 + m) n = blocks h.calls (m + n + 1) := by
    rw [hcalls, blocks_succ, List.cons_append, Nat.zero_add, blocks_append]
  refine ⟨k, m + n + 1, _, by rw [hnews], .inr ⟨rfl, ?_⟩⟩
  rw [← hnews, perm_fields]
  exact hiff

/-- The heap when the header and the fields have been granted. -/
def messageHeap (msg : CallerMsg) : ShareHeap :=
  ShareHeap.moved h (1 + (fieldCalls msg.msg_name + fieldCalls msg.msg_control))
    (⟨0, 0⟩ :: blocks 1 (fieldCalls msg.msg_name + fieldCalls msg.msg_control)) []

/-- The message with its fields, and the array that it is given. -/
def messageOf (msg : CallerMsg) (iov : Option (SharePtr × List (Option SharePtr))) : ShareMsg :=
  ⟨⟨0, 0⟩, msg.msg_name.map fun _ => ⟨1, 0⟩, iov,
    msg.msg_control.map fun _ => ⟨1 + fieldCalls msg.msg_name, 0⟩⟩

/-- What a call returns when the array has been asked for. -/
def messageWith (msg : CallerMsg) :
    ShareHeap × Option (SharePtr × List SharePtr) → ShareHeap × Option ShareMsg
  | (heap, none) => (heap.msghdrShareFree (messageOf msg none), none)
  | (heap, some (iov, bases)) => (heap, some (messageOf msg (some (iov, bases.map some))))

/-- The header and the fields are granted. -/
def FieldsGranted (msg : CallerMsg) : Prop :=
  Granted h 0 56 ∧ FieldGranted h 1 msg.msg_name ∧
    FieldGranted h (1 + fieldCalls msg.msg_name) msg.msg_control

/-- A message whose header or fields are refused is given back. -/
theorem msghdrShareAlloc_of_refused (hcalls : h.calls = 0) (msg : CallerMsg) (hrefused : ¬FieldsGranted h msg)
    (hsafe : safe) :
    (h.msghdrShareAlloc msg).2 = none ∧ Allocates h (h.msghdrShareAlloc msg).1 true safe := by
  unfold ShareHeap.msghdrShareAlloc
  by_cases hhdr : Granted h 0 56
  swap
  · rw [shareMemAlloc_of_refused h (by rwa [hcalls])]
    exact ⟨rfl, allocates_nothing h hsafe⟩
  rw [shareMemAlloc_of_granted h (by rwa [hcalls]), hcalls]
  dsimp only
  by_cases hname : FieldGranted h 1 msg.msg_name
  swap
  · rw [allocField_of_refused _ (by rw [moved_calls, hcalls]) (by rwa [fieldGranted_moved])]
    dsimp only
    rw [msghdrShareFree_eq, moved_moved, moved_moved]
    exact ⟨rfl, allocates_message h hcalls (m := 0) (n := 0) ⟨fun _ => hsafe, fun _ => List.Perm.refl _⟩⟩
  rw [allocField_of_granted _ (by rw [moved_calls, hcalls]) (by rwa [fieldGranted_moved])]
  dsimp only
  have hcontrol : ¬FieldGranted h (1 + fieldCalls msg.msg_name) msg.msg_control :=
    fun hcontrol => hrefused ⟨hhdr, hname, hcontrol⟩
  rw [moved_moved,
    allocField_of_refused _ (by rw [moved_calls, hcalls, Nat.zero_add]) (by rwa [fieldGranted_moved])]
  dsimp only
  have hmessage := allocates_message h hcalls (k := 1 + fieldCalls msg.msg_name + 1)
    (m := fieldCalls msg.msg_name) (n := 0)
    (⟨fun _ => hsafe, fun _ => List.Perm.refl _⟩ : ([] : List SharePtr).Perm _ ↔ safe)
  rw [msghdrShareFree_eq, moved_moved, moved_moved, fieldPtr_toList]
  refine ⟨rfl, ?_⟩
  simpa using hmessage

/-- With these granted, the rest is up to the array. -/
theorem msghdrShareAlloc_of_granted (hcalls : h.calls = 0) (msg : CallerMsg)
    (hgranted : FieldsGranted h msg) :
    h.msghdrShareAlloc msg =
      messageWith msg ((messageHeap h msg).iovecShareAlloc msg.msg_iov (int32 msg.msg_iovlen)) := by
  obtain ⟨hhdr, hname, hcontrol⟩ := hgranted
  unfold ShareHeap.msghdrShareAlloc
  rw [shareMemAlloc_of_granted h (by rwa [hcalls]), hcalls]
  dsimp only
  rw [allocField_of_granted _ (by rw [moved_calls, hcalls]) (by rwa [fieldGranted_moved])]
  dsimp only
  rw [moved_moved,
    allocField_of_granted _ (by rw [moved_calls, hcalls, Nat.zero_add]) (by rwa [fieldGranted_moved])]
  dsimp only
  have hheap : ShareHeap.moved
      (ShareHeap.moved h (1 + fieldCalls msg.msg_name)
        ([⟨0, 0⟩] ++ (msg.msg_name.map fun _ => (⟨0 + 1, 0⟩ : SharePtr)).toList) ([] ++ []))
      (fieldCalls msg.msg_control)
      (msg.msg_control.map fun _ => (⟨1 + fieldCalls msg.msg_name, 0⟩ : SharePtr)).toList [] =
      messageHeap h msg := by
    rw [moved_moved, fieldPtr_toList, fieldPtr_toList, messageHeap, Nat.zero_add, List.append_assoc,
      blocks_append, Nat.add_assoc]
    rfl
  rw [hheap]
  rcases (messageHeap h msg).iovecShareAlloc msg.msg_iov (int32 msg.msg_iovlen) with ⟨heap, _ | array⟩
  · rfl
  · rfl

/-- **`msghdr_share_alloc`** frees what it has allocated exactly when the message is safe. -/
theorem msghdrShareAlloc_spec (hcalls : h.calls = 0) (msg : CallerMsg) :
    Allocates h (h.msghdrShareAlloc msg).1 (h.msghdrShareAlloc msg).2.isNone (MessageSafe h msg) := by
  by_cases hgranted : FieldsGranted h msg
  swap
  · have hsafe : MessageSafe h msg :=
      fun hhdr hname hcontrol => absurd ⟨hhdr, hname, hcontrol⟩ hgranted
    obtain ⟨hnull, hallocates⟩ := msghdrShareAlloc_of_refused h hcalls msg hgranted hsafe
    rw [hnull]
    exact hallocates
  have hiff : MessageSafe h msg ↔ ArraySafe h (1 + fieldCalls msg.msg_name + fieldCalls msg.msg_control)
      msg.msg_iov (int32 msg.msg_iovlen) :=
    ⟨fun hsafe => hsafe hgranted.1 hgranted.2.1 hgranted.2.2, fun hsafe _ _ _ => hsafe⟩
  rcases hresult : (messageHeap h msg).iovecShareAlloc msg.msg_iov (int32 msg.msg_iovlen) with ⟨heap, array⟩
  have hspec := iovecShareAlloc_spec (messageHeap h msg) msg.msg_iov (int32 msg.msg_iovlen)
  rw [hresult] at hspec
  obtain ⟨k, n, frees, heq, hcases⟩ := hspec
  rw [messageHeap, moved_calls, hcalls, Nat.zero_add, arraySafe_moved, ← Nat.add_assoc, ← hiff] at hcases
  dsimp only at heq
  rw [messageHeap, moved_moved, moved_calls, hcalls, Nat.zero_add, List.nil_append] at heq
  rw [msghdrShareAlloc_of_granted h hcalls msg hgranted, hresult]
  cases array with
  | none =>
    rw [messageWith]
    dsimp only at hcases ⊢
    rcases hcases with ⟨hnull, -, -⟩ | ⟨-, hperm⟩
    · cases hnull
    rw [heq, messageOf, msghdrShareFree_eq, moved_moved, fieldPtr_toList, fieldPtr_toList, blocks_append,
      List.append_nil]
    refine allocates_message h hcalls ?_
    rw [← Nat.add_assoc]
    exact hperm
  | some array =>
    rw [messageWith]
    dsimp only at hcases ⊢
    rcases hcases with ⟨-, hfrees, hsafe⟩ | ⟨hnull, -⟩
    · refine ⟨1 + (fieldCalls msg.msg_name + fieldCalls msg.msg_control) + k,
        fieldCalls msg.msg_name + fieldCalls msg.msg_control + n + 1, [], ?_, .inl ⟨rfl, rfl, hsafe⟩⟩
      rw [heq, hfrees, hcalls, blocks_succ, Nat.zero_add, ← blocks_append 1 _ n]
      rfl
    · cases hnull

end

/-! ## The calls -/

/-- **An allocator gives everything back, and nothing else, exactly when** no pointer that has not been stored is
freed. -/
theorem share_call_right_iff (grants : ℕ → Bool) (junk : ℕ → ℕ → Option SharePtr) (c : ShareCall) :
    ShareCallRight (ShareHeap.start grants junk) c ↔ ShareCallSafe (ShareHeap.start grants junk) c := by
  have hspec : Allocates (ShareHeap.start grants junk) ((ShareHeap.start grants junk).shareCall c).1
      ((ShareHeap.start grants junk).shareCall c).2 (ShareCallSafe (ShareHeap.start grants junk) c) := by
    cases c with
    | iovecShareAlloc iov iovcnt => exact iovecShareAlloc_spec _ iov iovcnt
    | iovecShareAllocS => exact iovecShareAllocS_spec _
    | msghdrShareAlloc msg =>
      cases msg with
      | none => exact allocates_self _ trivial
      | some msg => exact msghdrShareAlloc_spec _ rfl msg
  obtain ⟨k, n, frees, heq, hcases⟩ := hspec
  rw [ShareCallRight, heq]
  rcases hcases with ⟨hnull, hfrees, hsafe⟩ | ⟨hnull, hiff⟩
  · rw [if_neg (by rw [hnull]; decide), hfrees]
    exact ⟨fun _ => hsafe, fun _ => rfl⟩
  · rw [if_pos hnull, ← hiff]
    exact ⟨fun hright => hright.1, fun hperm => ⟨hperm, hperm.nodup_iff.mpr (nodup_blocks _ n)⟩⟩

/-- An array of two buffers, the first of which is refused, in a block that held a pointer before. -/
theorem not_share_call_right :
    ¬∀ grants junk c, ShareCallRight (ShareHeap.start grants junk) c := by
  intro hright
  have hperm := (hright (fun k => decide (k = 0)) (fun _ _ => some ⟨7, 0⟩) (.iovecShareAlloc (some [8, 8]) 2)).1
  exact absurd hperm.length_eq (by decide)

end FStack.Analysis
