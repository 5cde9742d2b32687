import FStack.Model.HookWritev
import Mathlib.Algebra.BigOperators.Group.List.Basic

/-!
# What a round of `writev` copies

The bytes of the application's buffers have positions, from the first byte of the first buffer on.  A round that
begins with `sent` bytes fills slots with the bytes at `sent` and after it, up to a slot with something else in
it (`round_split`): `goodLen` is how far that is.
-/

set_option autoImplicit false

namespace FStack.Analysis

open FStack.Model

variable {lens : List ℕ} {pos pos' i iov_len : ℕ} {slots : List SlotFill}
variable {mid off n skip : ℕ} {a : List SlotFill} {rest : List ℕ}

/-- The position of the first byte of the buffer `i`. -/
def flatStart (lens : List ℕ) (i : ℕ) : ℕ := (lens.take i).sum

/-- The slots are filled with the bytes from `pos` to `pos'`. -/
def Contiguous (lens : List ℕ) : ℕ → List SlotFill → ℕ → Prop
  | pos, [], pos' => pos = pos'
  | _, .kept :: _, _ => False
  | pos, .copied i off n :: slots, pos' =>
    flatStart lens i + off = pos ∧ off + n ≤ lens.getD i 0 ∧ 0 < n ∧ Contiguous lens (pos + n) slots pos'

/-- The first slot is not filled with the bytes at `pos`. -/
def NotAt (lens : List ℕ) (pos : ℕ) : List SlotFill → Prop
  | [] => True
  | .kept :: _ => True
  | .copied i off n :: _ => flatStart lens i + off ≠ pos ∧ off + n ≤ lens.getD i 0 ∧ 0 < n

theorem Contiguous.append {b : List SlotFill} (ha : Contiguous lens pos a mid) (hb : Contiguous lens mid b pos')
    :
    Contiguous lens pos (a ++ b) pos' := by
  induction a generalizing pos with
  | nil =>
    obtain rfl : pos = mid := ha
    exact hb
  | cons s a ih =>
    cases s with
    | kept => exact absurd ha id
    | copied i off n =>
      obtain ⟨hstart, hrange, hpos, hrest⟩ := ha
      exact ⟨hstart, hrange, hpos, ih hrest⟩

theorem Contiguous.single (hrange : off + n ≤ lens.getD i 0) (hpos : 0 < n) :
    Contiguous lens (flatStart lens i + off) [.copied i off n] (flatStart lens i + off + n) :=
  ⟨rfl, hrange, hpos, rfl⟩

/-- INTERNAL: What is counted of contiguous slots. -/
theorem Contiguous.counted (h : Contiguous lens pos slots pos') :
    pos + (slots.map SlotFill.counted).sum = pos' ∧
      (slots.map SlotFill.iov_len).sum = (slots.map SlotFill.counted).sum := by
  induction slots generalizing pos with
  | nil => exact ⟨h, rfl⟩
  | cons s slots ih =>
    cases s with
    | kept => exact absurd h id
    | copied i off n =>
      obtain ⟨hsum, hlen⟩ := ih h.2.2.2
      simp only [List.map_cons, List.sum_cons, SlotFill.counted, SlotFill.iov_len]
      omega

theorem flatStart_succ {l : ℕ} (h : lens.drop i = l :: rest) :
    flatStart lens (i + 1) = flatStart lens i + l ∧ lens.getD i 0 = l ∧ lens.drop (i + 1) = rest := by
  have hget : lens[i]? = some l := by
    rw [← List.head?_drop, h]
    rfl
  refine ⟨?_, ?_, ?_⟩
  · rw [flatStart, flatStart, List.take_add_one, hget, List.sum_append]
    simp
  · rw [List.getD_eq_getElem?_getD, hget, Option.getD_some]
  · rw [← List.drop_drop, h]
    rfl

/-! ## One buffer in several slots -/

/-- INTERNAL: The inner loop fills the free slots with the bytes from `iov_len - len` on, as far as they
go. -/
theorem splitSegment_spec (hlen : lens.getD i 0 = iov_len) (free : ℕ) :
    ∀ len, 0 < len → len ≤ iov_len →
      Contiguous lens (flatStart lens i + (iov_len - len)) (splitSegment i iov_len free len).1
        (flatStart lens i + (iov_len - len) + min len (free * IOV_LEN_MAX)) ∧
      (splitSegment i iov_len free len).2 = len - min len (free * IOV_LEN_MAX) ∧
      (splitSegment i iov_len free len).1.length =
        min free ((len + (IOV_LEN_MAX - 1)) / IOV_LEN_MAX) := by
  induction free with
  | zero =>
    intro len hpos hle
    simp [splitSegment, Contiguous]
  | succ free ih =>
    intro len hpos hle
    have hmul : (free + 1) * IOV_LEN_MAX = free * IOV_LEN_MAX + IOV_LEN_MAX := Nat.succ_mul _ _
    have hmax : IOV_LEN_MAX = 2048 := rfl
    rw [splitSegment]
    by_cases hdone : len ≤ IOV_LEN_MAX
    · have hmin : min IOV_LEN_MAX len = len := by omega
      simp only [hmin]
      rw [if_pos (Nat.sub_self len)]
      have hmin' : min len ((free + 1) * IOV_LEN_MAX) = len := by omega
      have hone : min (free + 1) ((len + (IOV_LEN_MAX - 1)) / IOV_LEN_MAX) = 1 := by
        rw [hmax]
        omega
      rw [hmin', hone]
      exact ⟨Contiguous.single (by omega) hpos, (Nat.sub_self len).symm, rfl⟩
    · have hmin : min IOV_LEN_MAX len = IOV_LEN_MAX := by omega
      have hmore : ¬len - IOV_LEN_MAX = 0 := by omega
      simp only [hmin]
      rw [if_neg hmore]
      obtain ⟨hcont, hrest, hcount⟩ := ih (len - IOV_LEN_MAX) (by omega) (by omega)
      have hnext : flatStart lens i + (iov_len - len) + IOV_LEN_MAX =
          flatStart lens i + (iov_len - (len - IOV_LEN_MAX)) := by omega
      have hend : flatStart lens i + (iov_len - (len - IOV_LEN_MAX)) +
            min (len - IOV_LEN_MAX) (free * IOV_LEN_MAX) =
          flatStart lens i + (iov_len - len) + min len ((free + 1) * IOV_LEN_MAX) := by omega
      rw [hend] at hcont
      generalize splitSegment i iov_len free (len - IOV_LEN_MAX) = split at hcont hrest hcount ⊢
      refine ⟨⟨rfl, by omega, by omega, ?_⟩, ?_, ?_⟩
      · rw [hnext]
        exact hcont
      · rw [hrest]
        omega
      · rw [List.length_cons, hcount, hmax]
        omega

/-- A slot is handed to F-Stack with at least one byte and at most `IOV_LEN_MAX`; what it is filled with is
counted, and is in its buffer. -/
structure SlotOk (lens : List ℕ) (s : SlotFill) : Prop where
  some : 0 < s.iov_len
  fits : s.iov_len ≤ IOV_LEN_MAX
  counted : s = .kept ∨ 0 < s.counted
  range : ∀ i off n, s = .copied i off n → off + n ≤ lens.getD i 0

theorem slotOk_kept (lens : List ℕ) : SlotOk lens .kept :=
  ⟨by decide, Nat.le_refl _, Or.inl rfl, by simp⟩

theorem slotOk_copied (hpos : 0 < n) (hle : n ≤ IOV_LEN_MAX) (hrange : off + n ≤ lens.getD i 0) :
    SlotOk lens (.copied i off n) := by
  refine ⟨hpos, hle, Or.inr hpos, ?_⟩
  rintro _ _ _ ⟨⟩
  exact hrange

theorem splitSegment_ok (hget : lens.getD i 0 = iov_len) (free : ℕ) :
    ∀ len, 0 < len → len ≤ iov_len → (splitSegment i iov_len free len).1.length ≤ free ∧
      ∀ s ∈ (splitSegment i iov_len free len).1, SlotOk lens s := by
  induction free with
  | zero =>
    intro len hpos hle
    simp [splitSegment]
  | succ free ih =>
    intro len hpos hle
    have hmax : IOV_LEN_MAX = 2048 := rfl
    have hslot : SlotOk lens (.copied i (iov_len - len) (min IOV_LEN_MAX len)) :=
      slotOk_copied (by omega) (Nat.min_le_left _ _) (by omega)
    rw [splitSegment]
    split
    · refine ⟨by simp, fun s hs => ?_⟩
      rw [List.mem_singleton.mp hs]
      exact hslot
    · rename_i hmore
      obtain ⟨hlen, hok⟩ := ih (len - min IOV_LEN_MAX len) (by omega) (by omega)
      generalize splitSegment i iov_len free (len - min IOV_LEN_MAX len) = split at hlen hok ⊢
      refine ⟨Nat.succ_le_succ hlen, fun s hs => ?_⟩
      rcases List.mem_cons.mp hs with rfl | hmem
      · exact hslot
      · exact hok s hmem

/-! ## A round -/

/-- INTERNAL: A buffer of which more than one slot is needed. -/
theorem share_long (lens : List ℕ) (i free : ℕ) (hlong : ¬iov_len - skip ≤ IOV_LEN_MAX) :
    iovecLocal2Share (iov_len :: lens) i (free + 1) skip =
      if iov_len - skip ≤ (free + 1) * IOV_LEN_MAX then
        (iovecLocal2Share lens (i + 1)
          (free + 1 - (iov_len - skip + (IOV_LEN_MAX - 1)) / IOV_LEN_MAX) skip).after
          (splitSegment i iov_len (free + 1) (iov_len - skip)).1
      else ⟨(splitSegment i iov_len (free + 1) (iov_len - skip)).1, i⟩ := by
  have hmax : IOV_LEN_MAX = 2048 := rfl
  have hget : (List.replicate (i + 1) iov_len).getD i 0 = iov_len := by
    simp [List.getD_eq_getElem?_getD]
  obtain ⟨-, hrest, hcount⟩ :=
    splitSegment_spec hget (free + 1) (iov_len - skip) (by omega) (Nat.sub_le _ _)
  rw [iovecLocal2Share, if_neg (by omega), if_neg hlong]
  generalize splitSegment i iov_len (free + 1) (iov_len - skip) = split at hrest hcount ⊢
  obtain ⟨slots, rest⟩ := split
  by_cases hfits : iov_len - skip ≤ (free + 1) * IOV_LEN_MAX
  · obtain rfl : rest = 0 := by
      rw [Nat.min_eq_left hfits] at hrest
      exact hrest.trans (Nat.sub_self _)
    have hslots : slots.length = (iov_len - skip + (IOV_LEN_MAX - 1)) / IOV_LEN_MAX := by
      rw [hmax] at hfits hcount ⊢
      simp only at hcount
      omega
    rw [if_pos hfits, ← hslots]
    rfl
  · rw [if_neg hfits]
    have hmore : rest ≠ 0 := by
      simp only at hrest
      omega
    cases rest with
    | zero => exact absurd rfl hmore
    | succ rest => rfl

/-- **No round uses more slots than there are, or puts too much into one.** -/
theorem share_ok (rest : List ℕ) :
    ∀ i free skip, lens.drop i = rest → (iovecLocal2Share rest i free skip).slots.length ≤ free ∧
      ∀ s ∈ (iovecLocal2Share rest i free skip).slots, SlotOk lens s := by
  induction rest with
  | nil =>
    intro i free skip _
    simp [iovecLocal2Share]
  | cons iov_len rest ih =>
    intro i free skip hdrop
    obtain ⟨-, hget, hdrop'⟩ := flatStart_succ hdrop
    cases free with
    | zero => simp [iovecLocal2Share]
    | succ free =>
      by_cases hskip : iov_len ≤ skip
      · obtain ⟨hlen, hok⟩ := ih (i + 1) free (skip - iov_len) hdrop'
        rw [iovecLocal2Share, if_pos hskip]
        exact ⟨Nat.succ_le_succ hlen, List.forall_mem_cons.mpr ⟨slotOk_kept lens, hok⟩⟩
      · by_cases hshort : iov_len - skip ≤ IOV_LEN_MAX
        · obtain ⟨hlen, hok⟩ := ih (i + 1) free skip hdrop'
          rw [iovecLocal2Share, if_neg hskip, if_pos hshort]
          exact ⟨Nat.succ_le_succ hlen,
            List.forall_mem_cons.mpr ⟨slotOk_copied (by omega) hshort (by omega), hok⟩⟩
        · have hsplit := splitSegment_ok hget (free + 1) (iov_len - skip) (by omega) (Nat.sub_le _ _)
          rw [iovecLocal2Share, if_neg hskip, if_neg hshort]
          generalize splitSegment i iov_len (free + 1) (iov_len - skip) = split at hsplit ⊢
          obtain ⟨slots, rest'⟩ := split
          obtain ⟨hslots, hslotsOk⟩ := hsplit
          cases rest' with
          | succ rest' => exact ⟨hslots, hslotsOk⟩
          | zero =>
            obtain ⟨hlen, hok⟩ := ih (i + 1) (free + 1 - slots.length) skip hdrop'
            refine ⟨?_, ?_⟩
            · show (slots ++ _).length ≤ _
              rw [List.length_append]
              simp only at hslots
              omega
            · show ∀ s ∈ slots ++ _, SlotOk lens s
              exact List.forall_mem_append.mpr ⟨hslotsOk, hok⟩

/-- INTERNAL: Where everything has been sent, no slot is filled. -/
theorem share_all_sent (lens : List ℕ) :
    ∀ i free skip, lens.sum ≤ skip → (iovecLocal2Share lens i free skip).total = 0 := by
  induction lens with
  | nil =>
    intro i free skip hsum
    rfl
  | cons iov_len lens ih =>
    intro i free skip hsum
    rw [List.sum_cons] at hsum
    cases free with
    | zero => rfl
    | succ free =>
      have hrest := ih (i + 1) free (skip - iov_len) (by omega)
      rw [iovecLocal2Share, if_pos (by omega), ShareFill.total]
      rw [ShareFill.total] at hrest
      simp [ShareFill.after, SlotFill.counted, hrest]

/-- The slots are filled with the bytes from `pos` to `pos'`, up to a slot that is not filled with the bytes at
`pos'`. -/
def SplitsAt (lens : List ℕ) (pos pos' : ℕ) (slots : List SlotFill) : Prop :=
  ∃ front rest, slots = front ++ rest ∧ Contiguous lens pos front pos' ∧ NotAt lens pos' rest

theorem SplitsAt.after (ha : Contiguous lens pos a mid) (h : SplitsAt lens mid pos' slots) :
    SplitsAt lens pos pos' (a ++ slots) := by
  obtain ⟨front, rest, rfl, hfront, hrest⟩ := h
  exact ⟨a ++ front, rest, (List.append_assoc a front rest).symm, ha.append hfront, hrest⟩

theorem SplitsAt.stop (h : NotAt lens pos slots) :
    SplitsAt lens pos pos slots :=
  ⟨[], slots, rfl, rfl, h⟩

theorem SplitsAt.all (h : Contiguous lens pos slots pos') : SplitsAt lens pos pos' slots :=
  ⟨slots, [], (List.append_nil slots).symm, h, trivial⟩

/-- The bytes before the first empty buffer, as far as `free` slots hold them. -/
def leadingLen : List ℕ → ℕ → ℕ
  | [], _ => 0
  | iov_len :: lens, free =>
    if iov_len = 0 then 0
    else if iov_len ≤ free * IOV_LEN_MAX then
      iov_len + leadingLen lens (free - (iov_len + (IOV_LEN_MAX - 1)) / IOV_LEN_MAX)
    else free * IOV_LEN_MAX

/-- INTERNAL: The first round copies what comes before the first empty buffer. -/
theorem share_leading (rest : List ℕ) :
    ∀ i free, lens.drop i = rest →
      SplitsAt lens (flatStart lens i) (flatStart lens i + leadingLen rest free)
        (iovecLocal2Share rest i free 0).slots := by
  have hmax : IOV_LEN_MAX = 2048 := rfl
  induction rest with
  | nil =>
    intro i free _
    exact SplitsAt.stop trivial
  | cons iov_len rest ih =>
    intro i free hdrop
    obtain ⟨hstart, hget, hdrop'⟩ := flatStart_succ hdrop
    cases free with
    | zero =>
      have hnone : leadingLen (iov_len :: rest) 0 = 0 := by
        rw [leadingLen]
        split
        · rfl
        · rw [if_neg (by omega), Nat.zero_mul]
      rw [hnone]
      exact SplitsAt.stop trivial
    | succ free =>
      by_cases hempty : iov_len = 0
      · rw [leadingLen, if_pos hempty, iovecLocal2Share, if_pos (Nat.le_of_eq hempty)]
        exact SplitsAt.stop trivial
      rw [leadingLen, if_neg hempty]
      by_cases hshort : iov_len ≤ IOV_LEN_MAX
      · have hfits : iov_len ≤ (free + 1) * IOV_LEN_MAX := by
          rw [hmax] at hshort ⊢
          omega
        have hone : free + 1 - (iov_len + (IOV_LEN_MAX - 1)) / IOV_LEN_MAX = free := by
          rw [hmax] at hshort ⊢
          omega
        have hslot : Contiguous lens (flatStart lens i + 0) [.copied i 0 iov_len]
            (flatStart lens i + 0 + iov_len) :=
          Contiguous.single (by omega) (Nat.pos_of_ne_zero hempty)
        rw [Nat.add_zero, ← hstart] at hslot
        rw [if_pos hfits, hone, iovecLocal2Share, if_neg (by omega), Nat.sub_zero, if_pos hshort,
          ← Nat.add_assoc, ← hstart]
        exact (ih (i + 1) free hdrop').after hslot
      · obtain ⟨hcont, -, -⟩ :=
          splitSegment_spec hget (free + 1) iov_len (Nat.pos_of_ne_zero hempty) (Nat.le_refl _)
        rw [Nat.sub_self, Nat.add_zero] at hcont
        rw [share_long rest i free hshort, Nat.sub_zero]
        by_cases hfits : iov_len ≤ (free + 1) * IOV_LEN_MAX
        · rw [Nat.min_eq_left hfits, ← hstart] at hcont
          rw [if_pos hfits, if_pos hfits, ← Nat.add_assoc, ← hstart]
          exact (ih (i + 1) _ hdrop').after hcont
        · rw [Nat.min_eq_right (Nat.le_of_not_le hfits)] at hcont
          rw [if_neg hfits, if_neg hfits]
          exact SplitsAt.all hcont

/-- INTERNAL: When bytes have been skipped, a slot begins with the first byte of its buffer, or with the byte
after as many as have been skipped. -/
theorem share_skipped (hdrop : lens.drop i = iov_len :: rest) {free : ℕ}
    (hstart : skip < iov_len → iov_len - skip ≤ IOV_LEN_MAX → flatStart lens i ≠ pos)
    (hskip : ¬iov_len - skip ≤ IOV_LEN_MAX → flatStart lens i + skip ≠ pos) :
    NotAt lens pos (iovecLocal2Share (iov_len :: rest) i free skip).slots := by
  have hmax : IOV_LEN_MAX = 2048 := rfl
  obtain ⟨-, hget, -⟩ := flatStart_succ hdrop
  cases free with
  | zero => trivial
  | succ free =>
    by_cases hsent : iov_len ≤ skip
    · rw [iovecLocal2Share, if_pos hsent]
      trivial
    · by_cases hshort : iov_len - skip ≤ IOV_LEN_MAX
      · rw [iovecLocal2Share, if_neg hsent, if_pos hshort]
        exact ⟨hstart (by omega) hshort, by omega, by omega⟩
      · have hslots : ∃ more, (iovecLocal2Share (iov_len :: rest) i (free + 1) skip).slots =
            .copied i skip (min IOV_LEN_MAX (iov_len - skip)) :: more := by
          have hsplit : ∃ more, (splitSegment i iov_len (free + 1) (iov_len - skip)).1 =
              .copied i skip (min IOV_LEN_MAX (iov_len - skip)) :: more := by
            have hoff : iov_len - (iov_len - skip) = skip := by omega
            rw [splitSegment, hoff]
            split
            · exact ⟨[], rfl⟩
            · exact ⟨_, rfl⟩
          obtain ⟨more, hsplit⟩ := hsplit
          rw [share_long rest i free hshort, hsplit]
          split
          · exact ⟨_, rfl⟩
          · exact ⟨_, rfl⟩
        obtain ⟨more, hslots⟩ := hslots
        rw [hslots]
        exact ⟨hskip hshort, by omega, by omega⟩

/-- What is copied of the next buffer, as if the skipped bytes were at its end. -/
def nextLen : List ℕ → ℕ → ℕ
  | [], _ => 0
  | iov_len :: _, sent => if sent < iov_len ∧ iov_len - sent ≤ IOV_LEN_MAX then iov_len - sent else 0

/-- The bytes after the first `sent`, if the first buffer has more than `IOV_LEN_MAX` of them, as far as the
slots hold them. -/
def followingLen : List ℕ → ℕ → ℕ
  | [], _ => 0
  | iov_len :: lens, sent =>
    if iov_len - sent ≤ IOV_LEN_MAX then 0
    else if iov_len - sent ≤ (IOV_MAX - 1) * IOV_LEN_MAX then iov_len - sent + nextLen lens sent
    else min (iov_len - sent) (IOV_MAX * IOV_LEN_MAX)

/-- How many bytes of a round are those that follow the first `sent`. -/
def goodLen (lens : List ℕ) (sent : ℕ) : ℕ :=
  if sent = 0 then leadingLen lens IOV_MAX else followingLen lens sent

/-- INTERNAL: A round in which bytes are skipped. -/
theorem share_following (lens : List ℕ) {sent : ℕ} (hsent : 0 < sent) :
    SplitsAt lens sent (sent + followingLen lens sent) (iovecLocal2Share lens 0 IOV_MAX sent).slots := by
  have hmax : IOV_LEN_MAX = 2048 := rfl
  have hiov : IOV_MAX = 15 + 1 := rfl
  cases lens with
  | nil => exact SplitsAt.stop trivial
  | cons iov_len lens =>
    have hzero : flatStart (iov_len :: lens) 0 = 0 := rfl
    obtain ⟨hstart, hget, hdrop⟩ := flatStart_succ (show (iov_len :: lens).drop 0 = iov_len :: lens from rfl)
    rw [hzero, Nat.zero_add, Nat.zero_add] at hstart
    rw [Nat.zero_add] at hdrop
    rw [followingLen]
    by_cases hshort : iov_len - sent ≤ IOV_LEN_MAX
    · rw [if_pos hshort]
      refine SplitsAt.stop (share_skipped rfl ?_ ?_)
      · intro _ _
        rw [hzero]
        omega
      · intro hlong
        exact absurd hshort hlong
    obtain ⟨hcont, -, -⟩ :=
      splitSegment_spec hget IOV_MAX (iov_len - sent) (by omega) (Nat.sub_le _ _)
    have hpos : flatStart (iov_len :: lens) 0 + (iov_len - (iov_len - sent)) = sent := by
      rw [hzero]
      omega
    rw [hpos] at hcont
    have hround := share_long lens 0 15 hshort
    rw [← hiov] at hround
    rw [if_neg hshort, hround]
    by_cases hroom : iov_len - sent ≤ (IOV_MAX - 1) * IOV_LEN_MAX
    · have hfits : iov_len - sent ≤ IOV_MAX * IOV_LEN_MAX := by
        rw [hmax, hiov] at hroom ⊢
        omega
      obtain ⟨free, hfree⟩ : ∃ free,
          IOV_MAX - (iov_len - sent + (IOV_LEN_MAX - 1)) / IOV_LEN_MAX = free + 1 := by
        rw [hmax, hiov] at hroom ⊢
        exact ⟨15 - (iov_len - sent + 2047) / 2048, by omega⟩
      have hend : sent + (iov_len - sent) = iov_len := by omega
      rw [Nat.min_eq_left hfits, hend, ← hstart] at hcont
      rw [if_pos hroom, if_pos hfits, hfree, ← Nat.add_assoc, hend, ← hstart]
      refine SplitsAt.after hcont ?_
      cases lens with
      | nil => exact SplitsAt.stop trivial
      | cons next lens =>
        obtain ⟨hstart₂, hget₂, hdrop₂⟩ := flatStart_succ hdrop
        rw [nextLen]
        by_cases hnext : sent < next ∧ next - sent ≤ IOV_LEN_MAX
        · have hslot : Contiguous (iov_len :: next :: lens)
              (flatStart (iov_len :: next :: lens) 1 + 0) [.copied 1 0 (next - sent)]
              (flatStart (iov_len :: next :: lens) 1 + 0 + (next - sent)) :=
            Contiguous.single (by rw [hget₂]; omega) (by omega)
          rw [if_pos hnext, iovecLocal2Share, if_neg (by omega), if_pos hnext.2]
          refine SplitsAt.after hslot (SplitsAt.stop ?_)
          cases lens with
          | nil => trivial
          | cons l lens =>
            refine share_skipped hdrop₂ ?_ ?_
            · intro _ _
              omega
            · intro _
              omega
        · rw [if_neg hnext]
          refine SplitsAt.stop (share_skipped hdrop ?_ ?_)
          · intro hlt hle
            exact absurd ⟨hlt, hle⟩ hnext
          · intro _
            omega
    · rw [if_neg hroom]
      by_cases hfits : iov_len - sent ≤ IOV_MAX * IOV_LEN_MAX
      · have hnone : IOV_MAX - (iov_len - sent + (IOV_LEN_MAX - 1)) / IOV_LEN_MAX = 0 := by
          rw [hmax, hiov] at hroom hfits ⊢
          omega
        rw [if_pos hfits, hnone]
        refine SplitsAt.after hcont (SplitsAt.stop ?_)
        cases lens with
        | nil => trivial
        | cons next lens => trivial
      · rw [if_neg hfits]
        exact SplitsAt.all hcont

/-- **What a round copies**: the bytes from `sent` to `sent + goodLen`, and then, if anything, others. -/
theorem round_split (lens : List ℕ) (sent : ℕ) :
    SplitsAt lens sent (sent + goodLen lens sent) (iovecLocal2Share lens 0 IOV_MAX sent).slots := by
  rw [goodLen]
  by_cases hsent : sent = 0
  · rw [if_pos hsent, hsent]
    exact share_leading lens 0 IOV_MAX rfl
  · rw [if_neg hsent]
    exact share_following lens (Nat.pos_of_ne_zero hsent)

end FStack.Analysis
