import FStack.Model.SelectHook
import Mathlib.Data.List.GetD

/-!
# The sets of a `select` are split

The loops over a set visit the descriptors in it, up to `nfds`, each of which goes to the side that it belongs to.
What the sets of a side hold behind the words of `nfds` is of an earlier call, but no `select` looks at it.
-/

set_option autoImplicit false

namespace FStack.Analysis

open FStack.Model

/-! ## The descriptors of a set -/

section Scan

variable {ai : FdSet} {more : ℕ → Bool}

theorem getLsbD_word (ai : FdSet) (i j : ℕ) : (ai.word i).getLsbD j = (decide (j < 64) && ai (64 * i + j)) := by
  unfold FdSet.word
  rw [BitVec.getLsbD_setWidth, BitVec.getLsbD_ofBoolListLE]
  by_cases hj : j < 64
  · rw [List.getD_eq_getElem _ _ (by rwa [List.length_map, List.length_range]), List.getElem_map, List.getElem_range]
  · rw [decide_eq_false hj, Bool.false_and, Bool.false_and]

/-- A word that is not 0 has its lowest bit where `count_trailing_zeros` says. -/
theorem ctz_spec {x : BitVec 64} (hx : x ≠ 0#64) :
    x.ctz.toNat < 64 ∧ x.getLsbD x.ctz.toNat = true ∧ ∀ j < x.ctz.toNat, x.getLsbD j = false := by
  have hbit := BitVec.getLsbD_true_ctz_of_ne_zero hx
  exact ⟨BitVec.lt_of_getLsbD hbit, hbit, fun j hj => BitVec.getLsbD_false_of_lt_ctz hj⟩

/-- What a search from `i` on finds below `n`: the first bit, or nothing. -/
def Finds (ai : FdSet) (i n : ℕ) (found : Option ℕ) : Prop :=
  match found with
  | some fd => i ≤ fd ∧ fd < n ∧ ai fd = true ∧ ∀ j, i ≤ j → j < fd → ai j = false
  | none => ∀ j, i ≤ j → j < n → ai j = false

/-- There is nothing before the place where the search goes on. -/
theorem Finds.before {i m n : ℕ} {found : Option ℕ} (h : Finds ai m n found) (him : i ≤ m)
    (hempty : ∀ j, i ≤ j → j < m → ai j = false) : Finds ai i n found := by
  cases found with
  | some fd =>
    obtain ⟨hle, hlt, hbit, hnone⟩ := h
    refine ⟨Nat.le_trans him hle, hlt, hbit, fun j hj hjfd => ?_⟩
    by_cases hbefore : j < m
    · exact hempty j hj hbefore
    · exact hnone j (Nat.not_lt.mp hbefore) hjfd
  | none =>
    intro j hj hjn
    by_cases hbefore : j < m
    · exact hempty j hj hbefore
    · exact h j (Nat.not_lt.mp hbefore) hjn

/-- **The search by words**.
SOURCE: adapter/syscall/ff_hook_syscall.c:323-331, 349-354 -/
theorem firstWord_finds (ai : FdSet) (n i : ℕ) : Finds ai (64 * i) (64 * (i + n)) (firstWord ai n i) := by
  induction n generalizing i with
  | zero => exact fun j hle hlt => by omega
  | succ n ih =>
    unfold firstWord
    split
    · rename_i hzero
      -- the word is empty, and the search goes on behind it
      have hempty : ∀ j, 64 * i ≤ j → j < 64 * (i + 1) → ai j = false := by
        intro j hle hlt
        have hbit := getLsbD_word ai i (j - 64 * i)
        rw [hzero, BitVec.getLsbD_zero, decide_eq_true (by omega), Bool.true_and, Nat.add_sub_cancel' hle] at hbit
        exact hbit.symm
      have hrest := ih (i + 1)
      rw [show i + 1 + n = i + (n + 1) by omega] at hrest
      exact hrest.before (by omega) hempty
    · rename_i hsome
      obtain ⟨hlt, hbit, hnone⟩ := ctz_spec hsome
      rw [getLsbD_word, Bool.and_eq_true] at hbit
      refine ⟨Nat.le_add_right _ _, by omega, hbit.2, fun j hj hjfd => ?_⟩
      have hword := hnone (j - 64 * i) (by omega)
      rwa [getLsbD_word, decide_eq_true (by omega), Bool.true_and, Nat.add_sub_cancel' hj] at hword

/-- INTERNAL: **`ff_bitmap_next_set`** finds the first bit from `i` on.
SOURCE: adapter/syscall/ff_hook_syscall.c:334-357 -/
theorem ff_bitmap_next_set_finds (ai : FdSet) (i set_words : ℕ) :
    Finds ai i (64 * set_words) (ff_bitmap_next_set ai i set_words) := by
  unfold ff_bitmap_next_set
  by_cases hin : i / 64 < set_words
  · rw [if_pos hin]
    dsimp only
    -- the low bits of the word are shifted out
    have hshift : ∀ j < 64, ((ai.word (i / 64)).sshiftRight (i % 64) <<< (i % 64)).getLsbD j =
        (decide (i % 64 ≤ j) && ai (64 * (i / 64) + j)) := by
      intro j hj
      rw [BitVec.getLsbD_shiftLeft, BitVec.getLsbD_sshiftRight]
      by_cases hle : i % 64 ≤ j
      · have hback : i % 64 + (j - i % 64) = j := Nat.add_sub_cancel' hle
        rw [hback, if_pos hj, getLsbD_word, decide_eq_true hj, decide_eq_false (Nat.not_lt.mpr hle), decide_eq_true hle,
          decide_eq_false (by omega)]
        rfl
      · rw [decide_eq_true hj, decide_eq_true (Nat.not_le.mp hle), decide_eq_false hle]
        rfl
    generalize (ai.word (i / 64)).sshiftRight (i % 64) <<< (i % 64) = t at hshift ⊢
    split
    · rename_i hzero
      have hempty : ∀ j, i ≤ j → j < 64 * (i / 64 + 1) → ai j = false := by
        intro j hle hlt
        have hbit := hshift (j - 64 * (i / 64)) (by omega)
        rw [hzero, BitVec.getLsbD_zero, decide_eq_true (by omega), Bool.true_and,
          Nat.add_sub_cancel' (by omega)] at hbit
        exact hbit.symm
      have hrest := firstWord_finds ai (set_words - (i / 64 + 1)) (i / 64 + 1)
      rw [Nat.add_sub_cancel' (by omega)] at hrest
      exact hrest.before (by omega) hempty
    · rename_i hsome
      obtain ⟨hlt, hbit, hnone⟩ := ctz_spec hsome
      rw [hshift _ hlt, Bool.and_eq_true, decide_eq_true_eq] at hbit
      rw [show t.ctz.toNat + i / 64 * 64 = 64 * (i / 64) + t.ctz.toNat by omega]
      refine ⟨by omega, by omega, hbit.2, fun j hj hjfd => ?_⟩
      have hword := hnone (j - 64 * (i / 64)) (by omega)
      rwa [hshift _ (by omega), decide_eq_true (by omega), Bool.true_and, Nat.add_sub_cancel' (by omega)] at hword
  · rw [if_neg hin]
    exact fun j hle hlt => by omega

theorem ff_bitmap_first_set_finds (ai : FdSet) (set_words : ℕ) :
    Finds ai 0 (64 * set_words) (ff_bitmap_first_set ai set_words) := by
  have hfinds := firstWord_finds ai set_words 0
  rwa [Nat.zero_add] at hfinds

theorem mem_visitFds {set_words : ℕ} (hmore : ∀ a b, a ≤ b → more b = true → more a = true) (n i : ℕ)
    (hfuel : 64 * set_words ≤ i + n) {found : Option ℕ} (hfound : Finds ai i (64 * set_words) found) (fd : ℕ) :
    fd ∈ visitFds ai set_words more n found ↔ i ≤ fd ∧ fd < 64 * set_words ∧ ai fd = true ∧ more fd = true := by
  induction n generalizing i found with
  | zero =>
    unfold visitFds
    exact iff_of_false List.not_mem_nil fun h => by omega
  | succ n ih =>
    cases found with
    | none =>
      unfold visitFds
      refine iff_of_false List.not_mem_nil fun h => ?_
      exact Bool.false_ne_true ((hfound fd h.1 h.2.1).symm.trans h.2.2.1)
    | some first =>
      obtain ⟨hle, hlt, hbit, hnone⟩ := hfound
      have hfirst : ∀ x, i ≤ x → ai x = true → first ≤ x := by
        intro x hx hxbit
        by_contra hbefore
        exact Bool.false_ne_true ((hnone x hx (Nat.not_le.mp hbefore)).symm.trans hxbit)
      unfold visitFds
      split
      · rename_i hgo
        rw [List.mem_cons, ih (first + 1) (by omega) (ff_bitmap_next_set_finds ai (first + 1) set_words)]
        constructor
        · rintro (rfl | ⟨hfd, hrest⟩)
          · exact ⟨hle, hlt, hbit, hgo⟩
          · exact ⟨by omega, hrest⟩
        · rintro ⟨hfd, hrest⟩
          rcases Nat.eq_or_lt_of_le (hfirst fd hfd hrest.2.1) with rfl | hlater
          · exact Or.inl rfl
          · exact Or.inr ⟨hlater, hrest⟩
      · rename_i hstop
        refine iff_of_false List.not_mem_nil fun h => ?_
        exact hstop (hmore first fd (hfirst fd h.1 h.2.2.1) h.2.2.2)

/-- **A loop over a set** visits the descriptors in it.
SOURCE: adapter/syscall/ff_hook_syscall.c:2843-2844, 3053-3054 -/
theorem mem_fdsOf (ai : FdSet) (set_words : ℕ) (hmore : ∀ a b, a ≤ b → more b = true → more a = true) (fd : ℕ) :
    fd ∈ fdsOf ai set_words more ↔ fd < 64 * set_words ∧ ai fd = true ∧ more fd = true := by
  unfold fdsOf
  rw [mem_visitFds hmore _ 0 (by omega) (ff_bitmap_first_set_finds ai set_words)]
  exact and_iff_right (Nat.zero_le fd)

end Scan

/-! ## The descriptors are split -/

variable {input : SelectInput} {s : SelectSplit}

/-- The caller asks for a descriptor in one of its sets. -/
def Requested (input : SelectInput) (kind : SelectKind) (fd : ℕ) : Prop :=
  ∃ set ∈ input.fds kind, (fd : ℤ) < input.limit ∧ set fd = true

/-- The variables after the descriptors in `P` were split; `ff` and `kernel` are the sets without them. -/
structure Split (max : ℕ) (ff kernel : SelectKind → FdSet) (P : SelectKind → ℕ → Prop) (s : SelectSplit) : Prop where
  have_ff : ∀ kind : SelectKind, s.have_ff kind.flag = true ↔ ∃ fd, P kind (fd + max)
  have_kernel : s.have_kernel_fd = true ↔ ∃ kind fd, P kind fd ∧ fd < max
  ff_le : ∀ kind fd, P kind (fd + max) → fd ≤ s.max_ff_fd
  ff_max : s.max_ff_fd = 0 ∨ ∃ kind, P kind (s.max_ff_fd + max)
  kernel_le : ∀ kind fd, P kind fd → fd < max → fd ≤ s.max_kernel_fd
  kernel_max : s.max_kernel_fd = 0 ∨ ∃ kind, P kind s.max_kernel_fd
  ff : ∀ kind fd, s.ff kind fd = true ↔ P kind (fd + max) ∨ ff kind fd = true
  kernel : ∀ kind fd, s.kernel kind fd = true ↔ P kind fd ∧ fd < max ∨ kernel kind fd = true

theorem flag_flag (kind : SelectKind) : kind.flag.flag = kind := by cases kind <;> rfl

theorem FdSet.add_iff (set : FdSet) (fd x : ℕ) : set.add fd x = true ↔ x = fd ∨ set x = true := by
  unfold FdSet.add
  by_cases hx : x = fd
  · rw [hx, Function.update_self]
    exact iff_of_true rfl (Or.inl rfl)
  · rw [Function.update_of_ne hx, or_iff_right hx]

theorem flag_inj {kind other : SelectKind} : kind.flag = other.flag ↔ kind = other := by
  refine ⟨fun h => ?_, congrArg _⟩
  rw [← flag_flag kind, h, flag_flag]

section

variable {max : ℕ} {ff kernel : SelectKind → FdSet} {P : SelectKind → ℕ → Prop}

/-- INTERNAL: a descriptor of F-Stack.
SOURCE: adapter/syscall/ff_hook_syscall.c:2845-2850 -/
theorem Split.putFf (h : Split max ff kernel P s) (kind : SelectKind) {fd : ℕ} (hfd : max ≤ fd) :
    Split max ff kernel (fun k x => P k x ∨ k = kind ∧ x = fd) (s.put max kind fd) := by
  have hput : s.put max kind fd = { s with
      have_ff := Function.update s.have_ff kind.flag true
      max_ff_fd := if s.max_ff_fd < fd - max then fd - max else s.max_ff_fd
      ff := Function.update s.ff kind ((s.ff kind).add (fd - max)) } := if_pos hfd
  have hshift : ∀ x, x + max = fd ↔ x = fd - max := fun x => by omega
  rw [hput]
  constructor
  case have_ff =>
    intro k
    dsimp only
    by_cases hk : k = kind
    · rw [hk, Function.update_self]
      exact iff_of_true rfl ⟨fd - max, Or.inr ⟨rfl, Nat.sub_add_cancel hfd⟩⟩
    · rw [Function.update_of_ne fun heq => hk (flag_inj.mp heq), h.have_ff]
      exact exists_congr fun x => (or_iff_left fun hnew => hk hnew.1).symm
  case have_kernel =>
    refine h.have_kernel.trans (exists_congr fun k => exists_congr fun x => ?_)
    refine and_congr_left fun hx => (or_iff_left fun hnew => ?_).symm
    have hxfd := hnew.2
    omega
  case ff_le =>
    rintro k x (hold | ⟨-, hnew⟩)
    · have hle := h.ff_le k x hold
      dsimp only
      split <;> omega
    · dsimp only
      split <;> omega
  case ff_max =>
    dsimp only
    split
    · exact Or.inr ⟨kind, Or.inr ⟨rfl, Nat.sub_add_cancel hfd⟩⟩
    · exact h.ff_max.imp_right fun hold => hold.imp fun k hk => Or.inl hk
  case kernel_le =>
    rintro k x (hold | ⟨-, rfl⟩) hx
    · exact h.kernel_le k x hold hx
    · exact absurd hfd (Nat.not_le.mpr hx)
  case kernel_max => exact h.kernel_max.imp_right fun hold => hold.imp fun k hk => Or.inl hk
  case ff =>
    intro k x
    dsimp only
    by_cases hk : k = kind
    · rw [hk, Function.update_self, FdSet.add_iff, h.ff, hshift]
      exact ⟨fun hor => by tauto, fun hor => by tauto⟩
    · rw [Function.update_of_ne hk, h.ff]
      exact or_congr_left (or_iff_left fun hnew => hk hnew.1).symm
  case kernel =>
    intro k x
    dsimp only
    rw [h.kernel]
    refine or_congr_left (and_congr_left fun hx => (or_iff_left fun hnew => ?_).symm)
    have hxfd := hnew.2
    omega

/-- INTERNAL: a descriptor of the kernel.
SOURCE: adapter/syscall/ff_hook_syscall.c:2851-2857 -/
theorem Split.putKernel (h : Split max ff kernel P s) (kind : SelectKind) {fd : ℕ} (hfd : fd < max) :
    Split max ff kernel (fun k x => P k x ∨ k = kind ∧ x = fd) (s.put max kind fd) := by
  have hput : s.put max kind fd = { s with
      have_kernel_fd := true
      max_kernel_fd := if s.max_kernel_fd < fd then fd else s.max_kernel_fd
      kernel := Function.update s.kernel kind ((s.kernel kind).add fd) } := if_neg (Nat.not_le.mpr hfd)
  have hshift : ∀ k x, (P k (x + max) ∨ k = kind ∧ x + max = fd) ↔ P k (x + max) := fun k x =>
    or_iff_left fun hnew => by
      have hxfd := hnew.2
      omega
  rw [hput]
  constructor
  case have_ff =>
    intro k
    rw [h.have_ff]
    exact exists_congr fun x => (hshift k x).symm
  case have_kernel => exact iff_of_true rfl ⟨kind, fd, Or.inr ⟨rfl, rfl⟩, hfd⟩
  case ff_le => exact fun k x hnew => h.ff_le k x ((hshift k x).mp hnew)
  case ff_max => exact h.ff_max.imp_right fun hold => hold.imp fun k hk => Or.inl hk
  case kernel_le =>
    rintro k x (hold | ⟨-, rfl⟩) hx
    · have hle := h.kernel_le k x hold hx
      dsimp only
      split <;> omega
    · dsimp only
      split <;> omega
  case kernel_max =>
    dsimp only
    split
    · exact Or.inr ⟨kind, Or.inr ⟨rfl, rfl⟩⟩
    · exact h.kernel_max.imp_right fun hold => hold.imp fun k hk => Or.inl hk
  case ff =>
    intro k x
    dsimp only
    rw [h.ff, hshift]
  case kernel =>
    intro k x
    dsimp only
    by_cases hk : k = kind
    · rw [hk, Function.update_self, FdSet.add_iff, h.kernel]
      constructor
      · rintro (rfl | ⟨hold, hx⟩ | hbase)
        · exact Or.inl ⟨Or.inr ⟨rfl, rfl⟩, hfd⟩
        · exact Or.inl ⟨Or.inl hold, hx⟩
        · exact Or.inr hbase
      · rintro (⟨hold | ⟨-, rfl⟩, hx⟩ | hbase)
        · exact Or.inr (Or.inl ⟨hold, hx⟩)
        · exact Or.inl rfl
        · exact Or.inr (Or.inr hbase)
    · rw [Function.update_of_ne hk, h.kernel]
      exact or_congr_left (and_congr_left fun _ => (or_iff_left fun hnew => hk hnew.1).symm)

theorem Split.congr {Q : SelectKind → ℕ → Prop} (h : Split max ff kernel P s) (hPQ : ∀ k x, P k x ↔ Q k x) :
    Split max ff kernel Q s := by
  have heq : P = Q := funext fun k => funext fun x => propext (hPQ k x)
  exact heq ▸ h

/-- INTERNAL: the loop over a set. -/
theorem Split.foldl (h : Split max ff kernel P s) (kind : SelectKind) (l : List ℕ) :
    Split max ff kernel (fun k x => P k x ∨ k = kind ∧ x ∈ l) (l.foldl (SelectSplit.put max kind) s) := by
  induction l generalizing P s with
  | nil => exact h.congr fun k x => (or_iff_left fun hnew => List.not_mem_nil hnew.2).symm
  | cons fd l ih =>
    have hput : Split max ff kernel (fun k x => P k x ∨ k = kind ∧ x = fd) (s.put max kind fd) := by
      rcases Nat.lt_or_ge fd max with hfd | hfd
      · exact h.putKernel kind hfd
      · exact h.putFf kind hfd
    refine (ih hput).congr fun k x => ?_
    rw [List.mem_cons, or_assoc, ← and_or_left]

/-- The sets of one kind are cleared before its descriptors are split. -/
theorem Split.clear (h : Split max ff kernel P s) (kind : SelectKind) (words : ℕ) (hnone : ∀ fd, ¬ P kind fd) :
    Split max (Function.update ff kind ((ff kind).clear words)) (Function.update kernel kind ((kernel kind).clear words))
      P { s with
        ff := Function.update s.ff kind ((s.ff kind).clear words)
        kernel := Function.update s.kernel kind ((s.kernel kind).clear words) } where
  have_ff := h.have_ff
  have_kernel := h.have_kernel
  ff_le := h.ff_le
  ff_max := h.ff_max
  kernel_le := h.kernel_le
  kernel_max := h.kernel_max
  ff k x := by
    dsimp only
    by_cases hk : k = kind
    · have hold := h.ff kind x
      rw [or_iff_right (hnone _)] at hold
      rw [hk, Function.update_self, Function.update_self, or_iff_right (hnone _)]
      unfold FdSet.clear
      rw [Bool.and_eq_true, Bool.and_eq_true, hold]
    · rw [Function.update_of_ne hk, Function.update_of_ne hk, h.ff]
  kernel k x := by
    dsimp only
    by_cases hk : k = kind
    · have hold := h.kernel kind x
      rw [or_iff_right fun hx => hnone _ hx.1] at hold
      rw [hk, Function.update_self, Function.update_self, or_iff_right fun hx => hnone _ hx.1]
      unfold FdSet.clear
      rw [Bool.and_eq_true, Bool.and_eq_true, hold]
    · rw [Function.update_of_ne hk, Function.update_of_ne hk, h.kernel]

/-- What a set of a side holds beside the descriptors of this call: nothing in the words of `nfds`, if the caller
gave the set. -/
def leftOverSets (input : SelectInput) (sets : SelectKind → FdSet) : SelectKind → FdSet := fun kind =>
  match input.fds kind with
  | none => sets kind
  | some _ => (sets kind).clear input.words.toNat

/-- The descriptors below `nfds` are in the words that are looked at. -/
theorem lt_words {fd : ℕ} (hfd : (fd : ℤ) < input.limit) : fd < 64 * input.words.toNat := by
  have hnonneg : 0 ≤ input.limit + 63 := by omega
  have hwords : input.words = (input.limit + 63) / 64 := Int.tdiv_eq_ediv_of_nonneg hnonneg
  omega

/-- **The part for one of the sets**.
SOURCE: adapter/syscall/ff_hook_syscall.c:2839-2921 -/
theorem Split.splitSet (h : Split input.ff_kernel_max_fd ff kernel P s) (kind : SelectKind)
    (hnone : ∀ fd, ¬ P kind fd) :
    Split input.ff_kernel_max_fd (Function.update ff kind (leftOverSets input ff kind))
      (Function.update kernel kind (leftOverSets input kernel kind))
      (fun k x => P k x ∨ k = kind ∧ Requested input kind x) (input.splitSet s kind) := by
  unfold SelectInput.splitSet leftOverSets
  cases hfds : input.fds kind with
  | none =>
    dsimp only
    rw [Function.update_eq_self, Function.update_eq_self]
    refine h.congr fun k x => (or_iff_left ?_).symm
    rintro ⟨-, set, hset, -⟩
    rw [hfds] at hset
    cases hset
  | some fds =>
    refine ((h.clear kind input.words.toNat hnone).foldl kind _).congr fun k x => ?_
    refine or_congr_right (and_congr_right fun _ => ?_)
    rw [mem_fdsOf _ _ fun a b hle hb => by
      rw [decide_eq_true_eq] at hb ⊢
      exact Int.lt_of_le_of_lt (Int.ofNat_le.mpr hle) hb]
    rw [decide_eq_true_eq]
    constructor
    · rintro ⟨-, hbit, hlimit⟩
      exact ⟨fds, hfds, hlimit, hbit⟩
    · rintro ⟨set, hset, hlimit, hbit⟩
      rw [hfds] at hset
      cases hset
      exact ⟨lt_words hlimit, hbit, hlimit⟩

end

/-- **The descriptors that are asked for are split**.
SOURCE: adapter/syscall/ff_hook_syscall.c:2837-2922 -/
theorem split_requested (input : SelectInput) (locals : SelectLocals) :
    Split input.ff_kernel_max_fd (leftOverSets input locals.ff) (leftOverSets input locals.kernel) (Requested input)
      (input.split locals) := by
  have hinit : Split input.ff_kernel_max_fd locals.ff locals.kernel (fun _ _ => False)
      ⟨fun _ => false, 0, locals.ff, false, 0, locals.kernel⟩ := by
    constructor
    case have_ff => exact fun kind => iff_of_false Bool.false_ne_true fun ⟨_, h⟩ => h
    case have_kernel => exact iff_of_false Bool.false_ne_true fun ⟨_, _, h⟩ => h.1
    case ff_le => exact fun kind fd h => h.elim
    case ff_max => exact Or.inl rfl
    case kernel_le => exact fun kind fd h => h.elim
    case kernel_max => exact Or.inl rfl
    case ff => exact fun kind fd => (or_iff_right id).symm
    case kernel => exact fun kind fd => (or_iff_right And.left).symm
  have hwrite : ∀ fd, ¬ (False ∨ SelectKind.write = .read ∧ Requested input .read fd) := by
    rintro fd (h | ⟨h, -⟩)
    · exact h
    · cases h
  have hexcept : ∀ fd, ¬ ((False ∨ SelectKind.except = .read ∧ Requested input .read fd) ∨
      SelectKind.except = .write ∧ Requested input .write fd) := by
    rintro fd ((h | ⟨h, -⟩) | ⟨h, -⟩)
    · exact h
    · cases h
    · cases h
  have hsets : ∀ sets : SelectKind → FdSet, leftOverSets input sets =
      [SelectKind.read, .write, .except].foldl
        (fun sets kind => Function.update sets kind (leftOverSets input sets kind)) sets := by
    intro sets
    funext kind
    cases kind <;> rfl
  rw [hsets locals.ff, hsets locals.kernel]
  have hall := ((hinit.splitSet .read fun _ h => h).splitSet .write hwrite).splitSet .except hexcept
  refine hall.congr fun kind fd => ?_
  cases kind <;> simp

end FStack.Analysis
