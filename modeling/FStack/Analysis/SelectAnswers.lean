import FStack.Analysis.SelectSets
import Mathlib.Order.Interval.Finset.Nat
import Mathlib.Algebra.Order.Ring.Int
import Mathlib.Tactic.Ring

/-!
# What a `select` over both sides returns

The sets are split and put together again as they should be, if F-Stack is asked with the right flags; those of the
second and the third set are taken for each other.  A shared set is read in all words of `nfds`, of which F-Stack
wrote only those up to its highest descriptor; and when F-Stack reports something in a later round, the sets still
have what the kernel reported in the round before.
-/

set_option autoImplicit false

namespace FStack.Analysis

open FStack.Model

variable {input : SelectInput} {locals : SelectLocals} {s : SelectSplit} {run : SelectRun}
variable {source : FdSet} {p : ℕ → Prop} {m max words : ℕ} {fds : SelectKind → Option FdSet} {answer : SelectAnswer}
  {run' : SelectRun} {call : SelectCall}

/-! ## What is expected -/

/-- A `select` is asked for a descriptor. -/
def Asks (call : SelectCall) (kind : SelectKind) (fd : ℕ) : Prop :=
  ∃ set ∈ call.sets kind, fd < call.nfds ∧ set fd = true

/-- A `select` reports a descriptor. -/
def Reports (call : SelectCall) (kind : SelectKind) (fd : ℕ) : Prop :=
  Asks call kind fd ∧ ∃ ready ∈ call.answer, ready kind fd = true

/-- A call is given the descriptors of its side, in the sets that they were requested in. -/
def CallRight (input : SelectInput) (call : SelectCall) : Prop :=
  ∀ kind fd, Asks call kind fd ↔
    if call.kernel then Requested input kind fd ∧ fd < input.ff_kernel_max_fd
    else Requested input kind (fd + input.ff_kernel_max_fd)

/-- In the last round a descriptor of the caller was reported by its side. -/
def Reported (input : SelectInput) (run : SelectRun) (kind : SelectKind) (fd : ℕ) : Prop :=
  ∃ call ∈ run.calls, call.round = run.round ∧
    if call.kernel then Reports call kind fd
    else input.ff_kernel_max_fd ≤ fd ∧ Reports call kind (fd - input.ff_kernel_max_fd)

/-- Every `select` is given what was requested of its side.  When the call returns without an error, both sides were
asked, the sets hold what was reported in the round of the return and nothing else, and the number of these is
returned.  Nothing is written but the sets that the caller gave. -/
structure SelectRight (input : SelectInput) (result : SelectRun × SelectEnd) : Prop where
  passed : ∀ call ∈ result.1.calls, CallRight input call
  both : ∀ ret, result.2 = .returned ret → 0 ≤ ret → ∀ kind fd, Requested input kind fd →
    ∃ call ∈ result.1.calls, call.kernel = decide (fd < input.ff_kernel_max_fd)
  null : ∀ kind, result.1.fds kind = none ↔ input.fds kind = none
  sets : ∀ ret, result.2 = .returned ret → 0 ≤ ret →
    ∀ kind, ∀ set ∈ result.1.fds kind, ∀ before ∈ input.fds kind, ∀ fd,
      set fd = true ↔ if fd < 64 * input.words.toNat then Reported input result.1 kind fd else before fd = true
  count : ∀ ret, result.2 = .returned ret → 0 ≤ ret → ret = countSets input.limit.toNat result.1.fds
  memory : result.2 ≠ .fault

/-- A descriptor of the kernel is requested. -/
def AsksKernel (input : SelectInput) : Prop := ∃ kind fd, Requested input kind fd ∧ fd < input.ff_kernel_max_fd

/-- A descriptor of F-Stack is requested in a set. -/
def AsksFf (input : SelectInput) (kind : SelectKind) : Prop :=
  ∃ fd, Requested input kind (fd + input.ff_kernel_max_fd)

/-- The kernel finds something ready. -/
def KernelFinds (input : SelectInput) (ready : SelectKind → ℕ → Bool) : Prop :=
  ∃ kind fd, Requested input kind fd ∧ fd < input.ff_kernel_max_fd ∧ ready kind fd = true

/-- F-Stack finds something ready. -/
def FfFinds (input : SelectInput) (ready : SelectKind → ℕ → Bool) : Prop :=
  ∃ kind fd, Requested input kind (fd + input.ff_kernel_max_fd) ∧ ready kind fd = true

/-- In the shared sets that are used, no bit is left of an earlier call in the words of `nfds` behind those with
descriptors of F-Stack; but one may be whose descriptor is behind these words for the caller, and in its set. -/
def Unstale (input : SelectInput) (locals : SelectLocals) : Prop :=
  ∀ kind fd, AsksFf input kind →
    (∀ other x, Requested input other (x + input.ff_kernel_max_fd) → x / 64 < fd / 64) →
    fd < 64 * input.words.toNat → locals.share kind fd = true →
    64 * input.words.toNat ≤ fd + input.ff_kernel_max_fd ∧
      ∃ before ∈ input.fds kind, before (fd + input.ff_kernel_max_fd) = true

/-- In the round in which F-Stack finds something ready, nothing is stale, and the kernel had found nothing in the
round before; unless it is the first round, and the kernel fails in it.  `prev` is the answer of the kernel in the
round before. -/
def EndSafe (input : SelectInput) (locals : SelectLocals) (start : ℤ) : SelectAnswer → List SelectRound → Prop
  | _, [] => True
  | prev, r :: rest =>
    ∀ ready ∈ r.ff,
      (FfFinds input ready →
        AsksKernel input ∧ prev = none ∧ r.kernel = none ∨
          Unstale input locals ∧ ∀ before ∈ prev, ¬ KernelFinds input before) ∧
      (¬ FfFinds input ready → (AsksKernel input → r.kernel ≠ none) → input.timeOver start r.now = false →
        EndSafe input locals start r.kernel rest)

/-- The condition on the sets, on what the thread has kept, and on the answers: `nfds` is not so negative that the
length of the sets is; if the clock fails, the kernel finds nothing; and if F-Stack is asked, there are descriptors of
it in the second set if and only if there are in the third, and the last round is safe. -/
structure SelectSafe (input : SelectInput) (locals : SelectLocals) (rs : List SelectRound) : Prop where
  words : input.words < 0 → ∀ kind, input.fds kind = none
  clock : input.timeout.isSome = true → input.clock = none → ∀ ready ∈ input.early, ¬ KernelFinds input ready
  flags : (input.timeout.isSome = true → input.clock ≠ none) → rs ≠ [] →
    (AsksFf input .write ↔ AsksFf input .except)
  rounds : (input.timeout.isSome = true → input.clock ≠ none) → EndSafe input locals (input.clock.getD 0) none rs

/-! ## Bits of sets -/

section Bits

variable {set : FdSet} {n fd : ℕ}

theorem clear_iff : set.clear n fd = true ↔ ¬ fd < 64 * n ∧ set fd = true := by
  unfold FdSet.clear
  rw [Bool.and_eq_true, Bool.not_eq_true', decide_eq_false_iff_not]

theorem selected_of_lt {ready : ℕ → Bool} (hfd : fd < 64 * ((n + 63) / 64)) :
    selected n ready set fd = true ↔ fd < n ∧ set fd = true ∧ ready fd = true := by
  unfold selected
  rw [if_pos hfd, Bool.and_eq_true, Bool.and_eq_true, decide_eq_true_eq, and_assoc]

theorem selected_of_le {ready : ℕ → Bool} (hfd : 64 * ((n + 63) / 64) ≤ fd) : selected n ready set fd = set fd :=
  if_neg (Nat.not_lt.mpr hfd)

theorem copy_of_lt (hfd : fd < 64 * n) : set.copy source n fd = source fd := if_pos hfd

theorem copy_of_le (hfd : 64 * n ≤ fd) : set.copy source n fd = set fd := if_neg (Nat.not_lt.mpr hfd)

/-- The descriptors that are given back. -/
theorem foldl_add_iff (l : List ℕ) (set : FdSet) (max x : ℕ) :
    l.foldl (fun fds fd => fds.add (fd + max)) set x = true ↔ set x = true ∨ ∃ fd ∈ l, x = fd + max := by
  induction l generalizing set with
  | nil => exact (or_iff_left fun ⟨_, hmem, _⟩ => List.not_mem_nil hmem).symm
  | cons fd l ih =>
    rw [List.foldl_cons, ih, FdSet.add_iff]
    constructor
    · rintro ((rfl | hset) | ⟨y, hy, rfl⟩)
      · exact Or.inr ⟨fd, List.mem_cons_self, rfl⟩
      · exact Or.inl hset
      · exact Or.inr ⟨y, List.mem_cons_of_mem _ hy, rfl⟩
    · rintro (hset | ⟨y, hy, rfl⟩)
      · exact Or.inl (Or.inr hset)
      · rcases List.mem_cons.mp hy with rfl | hy
        · exact Or.inl (Or.inl rfl)
        · exact Or.inr ⟨y, hy, rfl⟩

/-- The descriptors of both sides are counted apart. -/
theorem count_both {a b : ℕ → Prop} [DecidablePred p] [DecidablePred a] [DecidablePred b] {n : ℕ}
    (ha : ∀ x < n, a x → x < max) (hp : ∀ x < n, p x ↔ a x ∨ max ≤ x ∧ b (x - max)) (hb : ∀ y < m, b y → y + max < n)
    (hm : ∀ y, y + max < n → b y → y < m) :
    Nat.count p n = Nat.count a n + Nat.count b m := by
  have hsplit : (Finset.range n).filter p =
      (Finset.range n).filter a ∪ ((Finset.range m).filter b).image (· + max) := by
    ext x
    simp only [Finset.mem_filter, Finset.mem_union, Finset.mem_image, Finset.mem_range]
    constructor
    · rintro ⟨hx, hpx⟩
      rcases (hp x hx).mp hpx with hax | ⟨hle, hbx⟩
      · exact Or.inl ⟨hx, hax⟩
      · exact Or.inr ⟨x - max, ⟨hm _ (by omega) hbx, hbx⟩, Nat.sub_add_cancel hle⟩
    · rintro (⟨hx, hax⟩ | ⟨y, ⟨hy, hby⟩, rfl⟩)
      · exact ⟨hx, (hp x hx).mpr (Or.inl hax)⟩
      · have hlt := hb y hy hby
        exact ⟨hlt, (hp _ hlt).mpr (Or.inr ⟨Nat.le_add_left _ _, by rwa [Nat.add_sub_cancel]⟩)⟩
  have hdisjoint : Disjoint ((Finset.range n).filter a) (((Finset.range m).filter b).image (· + max)) := by
    rw [Finset.disjoint_left]
    intro x hx hximage
    obtain ⟨y, -, rfl⟩ := Finset.mem_image.mp hximage
    obtain ⟨hxn, hax⟩ := Finset.mem_filter.mp hx
    have hlt := ha _ (Finset.mem_range.mp hxn) hax
    omega
  rw [Nat.count_eq_card_filter_range, Nat.count_eq_card_filter_range, Nat.count_eq_card_filter_range, hsplit,
    Finset.card_union_of_disjoint hdisjoint, Finset.card_image_of_injective _ (add_left_injective max)]

end Bits

/-! ## What was split -/

section Sides

/-- The descriptors of the caller were split. -/
def SplitDone (input : SelectInput) (locals : SelectLocals) (s : SelectSplit) : Prop :=
  Split input.ff_kernel_max_fd (leftOverSets input locals.ff) (leftOverSets input locals.kernel) (Requested input) s

variable {kind : SelectKind} {fd : ℕ}

theorem Requested.isSome (h : Requested input kind fd) : input.fds kind ≠ none := by
  obtain ⟨set, hset, -⟩ := h
  rw [Option.mem_def.mp hset]
  exact Option.some_ne_none set

theorem Requested.lt_words (h : Requested input kind fd) : fd < 64 * input.words.toNat := by
  obtain ⟨set, -, hlimit, -⟩ := h
  exact Analysis.lt_words hlimit

theorem Requested.lt_limit (h : Requested input kind fd) : fd < input.limit.toNat := by
  obtain ⟨set, -, hlimit, -⟩ := h
  omega

theorem SplitDone.haveFf_iff (h : SplitDone input locals s) : s.have_ff kind = true ↔ AsksFf input kind.flag := by
  have hflag := h.have_ff kind.flag
  rwa [flag_flag] at hflag

theorem SplitDone.ff_iff (h : SplitDone input locals s) (hsome : input.fds kind ≠ none)
    (hfd : fd < 64 * input.words.toNat) :
    s.ff kind fd = true ↔ Requested input kind (fd + input.ff_kernel_max_fd) := by
  rw [h.ff, or_iff_left]
  unfold leftOverSets
  obtain ⟨set, hset⟩ := Option.ne_none_iff_exists'.mp hsome
  rw [hset]
  exact fun hbit => (clear_iff.mp hbit).1 hfd

theorem SplitDone.kernel_iff (h : SplitDone input locals s) (hsome : input.fds kind ≠ none)
    (hfd : fd < 64 * input.words.toNat) :
    s.kernel kind fd = true ↔ Requested input kind fd ∧ fd < input.ff_kernel_max_fd := by
  rw [h.kernel, or_iff_left]
  unfold leftOverSets
  obtain ⟨set, hset⟩ := Option.ne_none_iff_exists'.mp hsome
  rw [hset]
  exact fun hbit => (clear_iff.mp hbit).1 hfd

/-- Some descriptor of F-Stack is requested. -/
theorem SplitDone.anyFf (h : SplitDone input locals s) (hasks : AsksFf input kind) : s.haveFf = true := by
  have hflag := (h.have_ff kind).mpr hasks
  unfold SelectSplit.haveFf
  cases kind with
  | read => rw [show s.have_ff .read = true from hflag]; rfl
  | write => rw [show s.have_ff .except = true from hflag, Bool.or_true]
  | except => rw [show s.have_ff .write = true from hflag, Bool.or_true]; rfl

theorem SplitDone.ffWords_eq (h : SplitDone input locals s) (hasks : AsksFf input kind) :
    s.ffWords = (s.max_ff_fd + 1 + 63) / 64 := if_pos (h.anyFf hasks)

/-- The words that F-Stack looks at are among those of `nfds`. -/
theorem SplitDone.ffWords_le (h : SplitDone input locals s) (hasks : AsksFf input kind) :
    s.ffWords ≤ input.words.toNat := by
  rw [h.ffWords_eq hasks]
  obtain ⟨fd, hfd⟩ := hasks
  have hlt := hfd.lt_words
  rcases h.ff_max with hzero | ⟨other, hmax⟩
  · omega
  · have hmaxlt := hmax.lt_words
    omega

theorem SplitDone.kernelWords_le (h : SplitDone input locals s) (hasks : AsksKernel input) :
    s.kernelWords ≤ input.words.toNat := by
  unfold SelectSplit.kernelWords
  obtain ⟨kind, fd, hfd, -⟩ := hasks
  have hlt := hfd.lt_words
  rcases h.kernel_max with hzero | ⟨other, hmax⟩
  · omega
  · have hmaxlt := hmax.lt_words
    omega

/-- The words behind those that F-Stack looks at. -/
theorem SplitDone.behind_iff (h : SplitDone input locals s) (hasks : AsksFf input kind) :
    64 * s.ffWords ≤ fd ↔
      ∀ other x, Requested input other (x + input.ff_kernel_max_fd) → x / 64 < fd / 64 := by
  rw [h.ffWords_eq hasks]
  constructor
  · intro hle other x hx
    have hmax := h.ff_le other x hx
    omega
  · intro hall
    obtain ⟨x, hx⟩ := hasks
    rcases h.ff_max with hzero | ⟨other, hmax⟩
    · have hlt := hall kind x hx
      omega
    · have hlt := hall other s.max_ff_fd hmax
      omega

end Sides

/-! ## The kernel is asked -/

/-- The sets of the caller hold the descriptors of `bit` in the words of `nfds`. -/
structure Holding (input : SelectInput) (bit : SelectKind → ℕ → Prop) (fds : SelectKind → Option FdSet) : Prop where
  null : ∀ kind, fds kind = none ↔ input.fds kind = none
  bits : ∀ kind, ∀ set ∈ fds kind, ∀ before ∈ input.fds kind, ∀ fd,
    set fd = true ↔ if fd < 64 * input.words.toNat then bit kind fd else before fd = true

/-- Of two bounds above all that is counted, either may be taken. -/
theorem count_bound [DecidablePred p] {n : ℕ} (hn : ∀ x < n, p x → x < m) (hm : ∀ x < m, p x → x < n) :
    Nat.count p n = Nat.count p m := by
  rw [Nat.count_eq_card_filter_range, Nat.count_eq_card_filter_range]
  congr 1
  ext x
  rw [Finset.mem_filter, Finset.mem_filter, Finset.mem_range, Finset.mem_range]
  exact ⟨fun h => ⟨hn x h.1 h.2, h.2⟩, fun h => ⟨hm x h.1 h.2, h.2⟩⟩

theorem limit_le_words (input : SelectInput) : input.limit.toNat ≤ 64 * input.words.toNat := by
  by_contra hgt
  have hlt : 64 * input.words.toNat < 64 * input.words.toNat := lt_words (by omega)
  exact Nat.lt_irrefl _ hlt

/-- Of two bounds above the descriptors that are held, either may be taken. -/
theorem Holding.count_bound {bit : SelectKind → ℕ → Prop} {n : ℕ} (h : Holding input bit fds)
    (hbit : ∀ kind fd, bit kind fd → fd < n ∧ fd < input.limit.toNat) (hwords : n ≤ 64 * input.words.toNat) :
    countSets n fds = countSets input.limit.toNat fds := by
  have hkind : ∀ kind, countSet n (fds kind) = countSet input.limit.toNat (fds kind) := by
    intro kind
    cases hset : fds kind with
    | none => rfl
    | some set =>
      have hsome : input.fds kind ≠ none := fun hnone => by
        rw [(h.null kind).mpr hnone] at hset
        cases hset
      obtain ⟨before, hbefore⟩ := Option.ne_none_iff_exists'.mp hsome
      have hbits : ∀ x < 64 * input.words.toNat, set x = true → bit kind x := by
        intro x hx hbit
        have hiff := h.bits kind set hset before hbefore x
        rw [if_pos hx] at hiff
        exact hiff.mp hbit
      have hlimit := limit_le_words input
      refine Analysis.count_bound (fun x hx hxbit => ?_) fun x hx hxbit => ?_
      · exact (hbit kind x (hbits x (by omega) hxbit)).2
      · exact (hbit kind x (hbits x (by omega) hxbit)).1
  unfold countSets
  rw [hkind, hkind, hkind]

/-- The call of the `select` of the kernel. -/
def kernelCall (run : SelectRun) (s : SelectSplit) (answer : SelectAnswer) : SelectCall :=
  ⟨run.round, true, s.max_kernel_fd + 1,
    fun kind => (run.fds kind).map fun set => set.copy (s.kernel kind) s.kernelWords, answer⟩

theorem askKernel_calls (run : SelectRun) (s : SelectSplit) (answer : SelectAnswer) :
    (run.askKernel s answer).1.calls = run.calls ++ [kernelCall run s answer] := by
  cases answer <;> rfl

/-- **The kernel is given its descriptors**.
SOURCE: adapter/syscall/ff_hook_syscall.c:2999-3007 -/
theorem kernelCall_right (h : SplitDone input locals s) (hasks : AsksKernel input)
    (hnull : ∀ kind, run.fds kind = none ↔ input.fds kind = none) (answer : SelectAnswer) :
    CallRight input (kernelCall run s answer) := by
  intro kind fd
  have hwords := h.kernelWords_le hasks
  have hin : ∀ x < s.max_kernel_fd + 1, x < 64 * s.kernelWords := by
    unfold SelectSplit.kernelWords
    intro x hx
    omega
  rw [show (kernelCall run s answer).kernel = true from rfl, if_pos rfl]
  constructor
  · rintro ⟨set, hset, hfd, hbit⟩
    obtain ⟨old, hold, rfl⟩ := Option.mem_map.mp hset
    have hlt := hin fd hfd
    rw [copy_of_lt hlt] at hbit
    have hsome : input.fds kind ≠ none := fun hnone => by
      rw [(hnull kind).mpr hnone] at hold
      cases hold
    exact (h.kernel_iff hsome (by omega)).mp hbit
  · rintro ⟨hreq, hmax⟩
    have hfd : fd < s.max_kernel_fd + 1 := Nat.lt_succ_of_le (h.kernel_le kind fd hreq hmax)
    have hlt := hin fd hfd
    have hsome : run.fds kind ≠ none := fun hnone => hreq.isSome ((hnull kind).mp hnone)
    obtain ⟨old, hold⟩ := Option.ne_none_iff_exists'.mp hsome
    refine ⟨_, Option.mem_map_of_mem _ hold, hfd, ?_⟩
    rw [copy_of_lt hlt]
    exact (h.kernel_iff hreq.isSome (by omega)).mpr ⟨hreq, hmax⟩

/-- **The answer of the kernel** is in the sets of the caller, and is counted.
SOURCE: adapter/syscall/ff_hook_syscall.c:2999-3013 -/
theorem askKernel_holding (h : SplitDone input locals s) (hasks : AsksKernel input)
    {bit : SelectKind → ℕ → Prop} (hhold : Holding input bit run.fds)
    (hbit : ∀ kind fd, bit kind fd → Requested input kind fd ∧ fd < input.ff_kernel_max_fd)
    (ready : SelectKind → ℕ → Bool) :
    Holding input (fun kind fd => Requested input kind fd ∧ fd < input.ff_kernel_max_fd ∧ ready kind fd = true)
        (run.askKernel s (some ready)).1.fds ∧
      (run.askKernel s (some ready)).1.kernel_ret =
        countSets input.limit.toNat (run.askKernel s (some ready)).1.fds := by
  have hwords := h.kernelWords_le hasks
  have hin : ∀ x < s.max_kernel_fd + 1, x < 64 * s.kernelWords := by
    unfold SelectSplit.kernelWords
    intro x hx
    omega
  have hfds : ∀ kind, (run.askKernel s (some ready)).1.fds kind = ((run.fds kind).map fun set =>
      set.copy (s.kernel kind) s.kernelWords).map (selected (s.max_kernel_fd + 1) (ready kind)) := fun kind => rfl
  have hholding : Holding input
      (fun kind fd => Requested input kind fd ∧ fd < input.ff_kernel_max_fd ∧ ready kind fd = true)
      (run.askKernel s (some ready)).1.fds := by
    constructor
    case null =>
      intro kind
      rw [hfds, Option.map_eq_none_iff, Option.map_eq_none_iff]
      exact hhold.null kind
    case bits =>
      intro kind set hset before hbefore fd
      rw [hfds] at hset
      obtain ⟨mid, hmid, rfl⟩ := Option.mem_map.mp hset
      obtain ⟨old, hold, rfl⟩ := Option.mem_map.mp hmid
      have hsome : input.fds kind ≠ none := by
        rw [Option.mem_def.mp hbefore]
        exact Option.some_ne_none before
      rcases Nat.lt_or_ge fd (64 * s.kernelWords) with hlt | hge
      · have hinside : fd < 64 * input.words.toNat := by omega
        rw [selected_of_lt hlt, copy_of_lt hlt, if_pos hinside, h.kernel_iff hsome hinside]
        constructor
        · exact fun hall => ⟨hall.2.1.1, hall.2.1.2, hall.2.2⟩
        · exact fun hall => ⟨Nat.lt_succ_of_le (h.kernel_le kind fd hall.1 hall.2.1), ⟨hall.1, hall.2.1⟩, hall.2.2⟩
      · -- behind the words of the kernel nothing is left
        have hbehind : ∀ x, Requested input kind x → x < input.ff_kernel_max_fd → x < 64 * s.kernelWords := fun x hx hmax =>
          hin x (Nat.lt_succ_of_le (h.kernel_le kind x hx hmax))
        rw [selected_of_le hge, copy_of_le hge, hhold.bits kind old hold before hbefore]
        split
        · refine iff_of_false (fun hold => ?_) fun hall => ?_
          · have hlt := hbehind fd (hbit kind fd hold).1 (hbit kind fd hold).2
            omega
          · have hlt := hbehind fd hall.1 hall.2.1
            omega
        · rfl
  refine ⟨hholding, ?_⟩
  have hret : (run.askKernel s (some ready)).1.kernel_ret =
      countSets (s.max_kernel_fd + 1) (run.askKernel s (some ready)).1.fds := rfl
  rw [hret]
  refine congrArg Nat.cast (hholding.count_bound (fun kind fd hall => ?_) ?_)
  · exact ⟨Nat.lt_succ_of_le (h.kernel_le kind fd hall.1 hall.2.1), hall.1.lt_limit⟩
  · have hlast := hin s.max_kernel_fd (Nat.lt_succ_self _)
    omega

/-! ## F-Stack is asked -/

/-- The call of the `select` of F-Stack. -/
def ffCall (run : SelectRun) (s : SelectSplit) (locals : SelectLocals) (answer : SelectAnswer) : SelectCall :=
  ⟨run.round + 1, false, if s.haveFf then s.max_ff_fd + 1 else locals.nfds,
    fun kind => if s.have_ff kind then some ((run.share kind).copy (s.ff kind) s.ffWords) else none, answer⟩

theorem askFf_calls (run : SelectRun) (s : SelectSplit) (locals : SelectLocals) (answer : SelectAnswer) :
    (run.askFf s locals answer).1.calls = run.calls ++ [ffCall run s locals answer] := by
  have hshare : ∀ kind, (if s.have_ff kind then some (if s.have_ff kind then
      (run.share kind).copy (s.ff kind) s.ffWords else run.share kind) else none) =
      if s.have_ff kind then some ((run.share kind).copy (s.ff kind) s.ffWords) else none := by
    intro kind
    split <;> rfl
  unfold ffCall
  cases answer with
  | none =>
    unfold SelectRun.askFf
    dsimp only
    simp only [hshare]
  | some ready =>
    unfold SelectRun.askFf
    dsimp only
    simp only [hshare]

/-- F-Stack is asked for what is in the sets whose flags are set. -/
theorem ffCall_flag {kind : SelectKind} {fd : ℕ} (h : Asks (ffCall run s locals answer) kind fd) :
    s.have_ff kind = true := by
  obtain ⟨set, hset, -⟩ := h
  unfold ffCall at hset
  dsimp only at hset
  by_contra hno
  rw [if_neg hno] at hset
  cases hset

/-- The flags of the second and the third set may be taken for each other. -/
theorem asksFf_flag (hflags : AsksFf input .write ↔ AsksFf input .except) (kind : SelectKind) :
    AsksFf input kind.flag ↔ AsksFf input kind := by
  cases kind with
  | read => exact Iff.rfl
  | write => exact hflags.symm
  | except => exact hflags

/-- **F-Stack is given its descriptors**, if the flags are right.
SOURCE: adapter/syscall/ff_hook_syscall.c:2946-2965 -/
theorem ffCall_right (h : SplitDone input locals s) (hflags : AsksFf input .write ↔ AsksFf input .except)
    (answer : SelectAnswer) : CallRight input (ffCall run s locals answer) := by
  intro kind fd
  rw [show (ffCall run s locals answer).kernel = false from rfl, if_neg Bool.false_ne_true]
  constructor
  · intro hask
    have hflag := ffCall_flag hask
    have hasks : AsksFf input kind := (asksFf_flag hflags kind).mp (h.haveFf_iff.mp hflag)
    have hwords := h.ffWords_le hasks
    obtain ⟨set, hset, hfd, hbit⟩ := hask
    unfold ffCall at hset hfd
    dsimp only at hset hfd
    rw [if_pos hflag] at hset
    rw [if_pos (h.anyFf hasks)] at hfd
    cases hset
    have hlt : fd < 64 * s.ffWords := by
      rw [h.ffWords_eq hasks]
      omega
    rw [copy_of_lt hlt] at hbit
    obtain ⟨x, hx⟩ := hasks
    exact (h.ff_iff hx.isSome (by omega)).mp hbit
  · intro hreq
    have hasks : AsksFf input kind := ⟨fd, hreq⟩
    have hflag := h.haveFf_iff.mpr ((asksFf_flag hflags kind).mpr hasks)
    have hle := h.ff_le kind fd hreq
    have hwords := h.ffWords_le hasks
    have hlt : fd < 64 * s.ffWords := by
      rw [h.ffWords_eq hasks]
      omega
    refine ⟨(run.share kind).copy (s.ff kind) s.ffWords, ?_, ?_, ?_⟩
    · unfold ffCall
      dsimp only
      rw [if_pos hflag]
      exact rfl
    · unfold ffCall
      dsimp only
      rw [if_pos (h.anyFf hasks)]
      exact Nat.lt_succ_of_le hle
    · rw [copy_of_lt hlt]
      exact (h.ff_iff hreq.isSome (by omega)).mpr hreq

theorem countSets_ne_zero (n : ℕ) (sets : SelectKind → Option FdSet) :
    countSets n sets ≠ 0 ↔ ∃ kind, countSet n (sets kind) ≠ 0 := by
  unfold countSets
  constructor
  · intro hne
    by_contra hnone
    have hzero : ∀ kind, countSet n (sets kind) = 0 := fun kind => not_not.mp fun hkind => hnone ⟨kind, hkind⟩
    exact hne (by rw [hzero, hzero, hzero])
  · rintro ⟨kind, hkind⟩
    cases kind <;> omega

/-- A shared set after the `select` of F-Stack. -/
theorem askFf_share_eq (ready : SelectKind → ℕ → Bool) {kind : SelectKind} (hflag : s.have_ff kind = true) :
    (run.askFf s locals (some ready)).1.share kind =
      selected (if s.haveFf then s.max_ff_fd + 1 else locals.nfds) (ready kind)
        ((run.share kind).copy (s.ff kind) s.ffWords) := by
  unfold SelectRun.askFf
  dsimp only
  rw [if_pos hflag, if_pos hflag]
  rfl

theorem askFf_ret_eq (ready : SelectKind → ℕ → Bool) :
    (run.askFf s locals (some ready)).2 =
      countSets (if s.haveFf then s.max_ff_fd + 1 else locals.nfds) fun kind =>
        if s.have_ff kind then some ((run.askFf s locals (some ready)).1.share kind) else none := by
  have hafter : (run.askFf s locals (some ready)).2 =
      countSets (if s.haveFf then s.max_ff_fd + 1 else locals.nfds) fun kind =>
        (if s.have_ff kind then some (if s.have_ff kind then (run.share kind).copy (s.ff kind) s.ffWords
          else run.share kind) else none).map
            (selected (if s.haveFf then s.max_ff_fd + 1 else locals.nfds) (ready kind)) := rfl
  rw [hafter]
  congr 2
  funext kind
  by_cases hflag : s.have_ff kind = true
  · rw [if_pos hflag, if_pos hflag, if_pos hflag, askFf_share_eq ready hflag]
    rfl
  · rw [if_neg hflag, if_neg hflag]
    rfl

/-- **The answer of F-Stack** is in the words of the shared set that it looks at.
SOURCE: adapter/syscall/ff_hook_syscall.c:2946-2992 -/
theorem askFf_share (h : SplitDone input locals s) (hflags : AsksFf input .write ↔ AsksFf input .except)
    (ready : SelectKind → ℕ → Bool) {kind : SelectKind} (hasks : AsksFf input kind) (fd : ℕ) :
    (run.askFf s locals (some ready)).1.share kind fd = true ↔
      if fd < 64 * s.ffWords then Requested input kind (fd + input.ff_kernel_max_fd) ∧ ready kind fd = true
      else run.share kind fd = true := by
  have hflag := h.haveFf_iff.mpr ((asksFf_flag hflags kind).mpr hasks)
  have hwords := h.ffWords_le hasks
  rw [askFf_share_eq ready hflag, if_pos (h.anyFf hasks)]
  split
  · rename_i hlt
    have hlooked : fd < 64 * ((s.max_ff_fd + 1 + 63) / 64) := h.ffWords_eq hasks ▸ hlt
    obtain ⟨x, hx⟩ := hasks
    rw [selected_of_lt hlooked, copy_of_lt hlt, h.ff_iff hx.isSome (by omega)]
    exact ⟨fun hall => hall.2, fun hall => ⟨Nat.lt_succ_of_le (h.ff_le kind fd hall.1), hall⟩⟩
  · rename_i hge
    have hlooked : 64 * ((s.max_ff_fd + 1 + 63) / 64) ≤ fd := h.ffWords_eq hasks ▸ Nat.not_lt.mp hge
    rw [selected_of_le hlooked, copy_of_le (Nat.not_lt.mp hge)]

/-- What F-Stack finds in one set. -/
theorem askFf_countSet (h : SplitDone input locals s) (hflags : AsksFf input .write ↔ AsksFf input .except)
    (ready : SelectKind → ℕ → Bool) (kind : SelectKind) :
    countSet (if s.haveFf then s.max_ff_fd + 1 else locals.nfds)
        (if s.have_ff kind then some ((run.askFf s locals (some ready)).1.share kind) else none) ≠ 0 ↔
      ∃ fd, Requested input kind (fd + input.ff_kernel_max_fd) ∧ ready kind fd = true := by
  by_cases hflag : s.have_ff kind = true
  · have hasks : AsksFf input kind := (asksFf_flag hflags kind).mp (h.haveFf_iff.mp hflag)
    have hin : ∀ x < s.max_ff_fd + 1, x < 64 * s.ffWords := by
      rw [h.ffWords_eq hasks]
      intro x hx
      omega
    rw [if_pos hflag, if_pos (h.anyFf hasks)]
    unfold countSet
    rw [Nat.count_ne_iff_exists]
    constructor
    · rintro ⟨x, hx, hbit⟩
      rw [askFf_share h hflags ready hasks, if_pos (hin x hx)] at hbit
      exact ⟨x, hbit⟩
    · rintro ⟨x, hreq, hready⟩
      have hx : x < s.max_ff_fd + 1 := Nat.lt_succ_of_le (h.ff_le kind x hreq)
      refine ⟨x, hx, ?_⟩
      rw [askFf_share h hflags ready hasks, if_pos (hin x hx)]
      exact ⟨hreq, hready⟩
  · rw [if_neg hflag]
    refine iff_of_false (fun hne => hne rfl) ?_
    rintro ⟨fd, hreq, -⟩
    exact hflag (h.haveFf_iff.mpr ((asksFf_flag hflags kind).mpr ⟨fd, hreq⟩))

/-- F-Stack returns something if and only if it finds something. -/
theorem askFf_ret_pos (h : SplitDone input locals s) (hflags : AsksFf input .write ↔ AsksFf input .except)
    (ready : SelectKind → ℕ → Bool) : 0 < (run.askFf s locals (some ready)).2 ↔ FfFinds input ready := by
  rw [askFf_ret_eq, Int.natCast_pos, Nat.pos_iff_ne_zero, countSets_ne_zero]
  exact exists_congr fun kind => askFf_countSet h hflags ready kind

theorem askFf_ret_nonneg (ready : SelectKind → ℕ → Bool) : 0 ≤ (run.askFf s locals (some ready)).2 := by
  rw [askFf_ret_eq]
  exact Int.natCast_nonneg _

/-- A set holds something. -/
theorem Holding.countSet_ne_zero {bit : SelectKind → ℕ → Prop} (h : Holding input bit fds) (kind : SelectKind)
    (hbit : ∀ fd, bit kind fd → fd < input.limit.toNat ∧ input.fds kind ≠ none) :
    countSet input.limit.toNat (fds kind) ≠ 0 ↔ ∃ fd, bit kind fd := by
  have hlimit := limit_le_words input
  cases hset : fds kind with
  | none =>
    refine iff_of_false (fun hne => hne rfl) ?_
    rintro ⟨fd, hfd⟩
    exact (hbit fd hfd).2 ((h.null kind).mp hset)
  | some set =>
    have hsome : input.fds kind ≠ none := fun hnone => by
      rw [(h.null kind).mpr hnone] at hset
      cases hset
    obtain ⟨before, hbefore⟩ := Option.ne_none_iff_exists'.mp hsome
    unfold countSet
    rw [Nat.count_ne_iff_exists]
    constructor
    · rintro ⟨x, hx, hxbit⟩
      rw [h.bits kind set hset before hbefore, if_pos (by omega)] at hxbit
      exact ⟨x, hxbit⟩
    · rintro ⟨x, hx⟩
      refine ⟨x, (hbit x hx).1, ?_⟩
      rw [h.bits kind set hset before hbefore, if_pos (by have hlt := (hbit x hx).1; omega)]
      exact hx

/-! ## The answers are put together -/

/-- A set of the caller with the shared set that is given back. -/
def given (run : SelectRun) (s : SelectSplit) (words max : ℕ) (kind : SelectKind) : Option FdSet :=
  if s.have_ff kind then
    (run.fds kind).map fun set =>
      (fdsOf (run.share kind) words fun _ => true).foldl (fun fds fd => fds.add (fd + max)) set
  else run.fds kind

theorem giveKind_eq (words max : ℕ) {kind : SelectKind} (hsome : s.have_ff kind = true → run.fds kind ≠ none) :
    run.giveKind s words max kind =
      some { run with fds := Function.update run.fds kind (given run s words max kind) } := by
  unfold SelectRun.giveKind given
  by_cases hflag : s.have_ff kind = true
  · obtain ⟨set, hset⟩ := Option.ne_none_iff_exists'.mp (hsome hflag)
    rw [if_pos hflag, if_pos hflag, hset]
    rfl
  · rw [if_neg hflag, if_neg hflag, Function.update_eq_self]

/-- **The shared sets are given back**, if the caller gave the sets of their flags.
SOURCE: adapter/syscall/ff_hook_syscall.c:3048-3073 -/
theorem giveBack_eq (words max : ℕ) (hsome : ∀ kind, s.have_ff kind = true → run.fds kind ≠ none) :
    run.giveBack s words max = some { run with fds := given run s words max } := by
  unfold SelectRun.giveBack
  rw [giveKind_eq words max (hsome .read)]
  dsimp only [Option.bind_eq_bind, Option.bind_some]
  rw [giveKind_eq words max (by exact hsome .write)]
  dsimp only [Option.bind_some]
  rw [giveKind_eq words max (by exact hsome .except)]
  congr 2
  funext kind
  cases kind <;> rfl

/-- The descriptors in a set of the caller after the shared set was given back. -/
theorem given_iff (words max : ℕ) {kind : SelectKind} {set old : FdSet} (hold : run.fds kind = some old)
    (hset : given run s words max kind = some set) (x : ℕ) :
    set x = true ↔ old x = true ∨
      s.have_ff kind = true ∧ max ≤ x ∧ x - max < 64 * words ∧ run.share kind (x - max) = true := by
  unfold given at hset
  rw [hold] at hset
  by_cases hflag : s.have_ff kind = true
  · rw [if_pos hflag] at hset
    cases hset
    rw [foldl_add_iff]
    refine or_congr_right ⟨?_, ?_⟩
    · rintro ⟨fd, hfd, rfl⟩
      obtain ⟨hlt, hbit, -⟩ := (mem_fdsOf _ _ (fun _ _ _ _ => rfl) fd).mp hfd
      rw [Nat.add_sub_cancel]
      exact ⟨hflag, Nat.le_add_left _ _, hlt, hbit⟩
    · rintro ⟨-, hle, hlt, hbit⟩
      exact ⟨x - max, (mem_fdsOf _ _ (fun _ _ _ _ => rfl) _).mpr ⟨hlt, hbit, rfl⟩, (Nat.sub_add_cancel hle).symm⟩
  · rw [if_neg hflag] at hset
    cases hset
    exact (or_iff_left fun hall => hflag hall.1).symm

/-- The answers of a round in which F-Stack found something, before its shared sets are given back: `bit` is what the
sets of the caller hold, and `now` what the kernel reported in the round. -/
structure Merging (input : SelectInput) (locals : SelectLocals) (s : SelectSplit) (bit now : SelectKind → ℕ → Prop)
    (ready : SelectKind → ℕ → Bool) (run : SelectRun) (ret : ℤ) : Prop where
  holding : Holding input bit run.fds
  requested : ∀ kind fd, bit kind fd → Requested input kind fd ∧ fd < input.ff_kernel_max_fd
  kernel_ret : run.kernel_ret = countSets input.limit.toNat run.fds
  share : ∀ kind, AsksFf input kind → ∀ fd, run.share kind fd = true ↔
    if fd < 64 * s.ffWords then Requested input kind (fd + input.ff_kernel_max_fd) ∧ ready kind fd = true
    else locals.share kind fd = true
  found : ret = countSets (if s.haveFf then s.max_ff_fd + 1 else locals.nfds) fun kind =>
    if s.have_ff kind then some (run.share kind) else none
  passed : ∀ call ∈ run.calls, CallRight input call
  both : ∀ kind fd, Requested input kind fd → ∃ call ∈ run.calls, call.kernel = decide (fd < input.ff_kernel_max_fd)
  reported : ∀ kind fd, Reported input run kind fd ↔ now kind fd ∨ input.ff_kernel_max_fd ≤ fd ∧
    Requested input kind fd ∧ ready kind (fd - input.ff_kernel_max_fd) = true
  fresh : ∀ kind fd, now kind fd → bit kind fd

section Merge

variable {bit now : SelectKind → ℕ → Prop} {ready : SelectKind → ℕ → Bool} {ret : ℤ}

/-- What the sets hold when nothing is stale. -/
theorem Merging.given_holding (h : Merging input locals s bit now ready run ret) (hs : SplitDone input locals s)
    (hflags : AsksFf input .write ↔ AsksFf input .except) (hunstale : Unstale input locals) :
    Holding input (fun kind fd => bit kind fd ∨ input.ff_kernel_max_fd ≤ fd ∧ Requested input kind fd ∧
        ready kind (fd - input.ff_kernel_max_fd) = true)
      (given run s input.words.toNat input.ff_kernel_max_fd) := by
  constructor
  case null =>
    intro kind
    rw [← h.holding.null kind]
    unfold given
    split
    · rw [Option.map_eq_none_iff]
    · exact Iff.rfl
  case bits =>
    intro kind set hset before hbefore x
    have hsome : run.fds kind ≠ none := fun hnone => by
      rw [(h.holding.null kind).mp hnone] at hbefore
      cases hbefore
    obtain ⟨old, hold⟩ := Option.ne_none_iff_exists'.mp hsome
    rw [given_iff _ _ hold hset, h.holding.bits kind old hold before hbefore]
    have hasks : s.have_ff kind = true → AsksFf input kind := fun hflag =>
      (asksFf_flag hflags kind).mp (hs.haveFf_iff.mp hflag)
    split
    · rename_i hin
      refine or_congr_right ⟨?_, ?_⟩
      · rintro ⟨hflag, hle, hlt, hbit⟩
        rw [h.share kind (hasks hflag)] at hbit
        split at hbit
        · rw [Nat.sub_add_cancel hle] at hbit
          exact ⟨hle, hbit⟩
        · -- a bit of an earlier call
          rename_i hge
          have hstale := (hunstale kind _ (hasks hflag)
            ((hs.behind_iff (hasks hflag)).mp (Nat.not_lt.mp hge)) hlt hbit).1
          omega
      · rintro ⟨hle, hreq, hready⟩
        rw [← Nat.sub_add_cancel hle] at hreq
        have hask : AsksFf input kind := ⟨_, hreq⟩
        have hmax := hs.ff_le kind _ hreq
        have hlt : x - input.ff_kernel_max_fd < 64 * s.ffWords := by
          rw [hs.ffWords_eq hask]
          omega
        refine ⟨hs.haveFf_iff.mpr ((asksFf_flag hflags kind).mpr hask), hle, by omega, ?_⟩
        rw [h.share kind hask, if_pos hlt]
        exact ⟨hreq, hready⟩
    · rename_i hout
      refine or_iff_left_of_imp ?_
      rintro ⟨hflag, hle, hlt, hbit⟩
      rw [h.share kind (hasks hflag)] at hbit
      split at hbit
      · rw [Nat.sub_add_cancel hle] at hbit
        exact absurd hbit.1.lt_words hout
      · rename_i hge
        obtain ⟨-, set', hset', hin⟩ := hunstale kind _ (hasks hflag)
          ((hs.behind_iff (hasks hflag)).mp (Nat.not_lt.mp hge)) hlt hbit
        rw [Option.mem_def.mp hbefore] at hset'
        cases hset'
        rwa [Nat.sub_add_cancel hle] at hin

/-- What is returned is the number of descriptors that the sets hold. -/
theorem Merging.count (h : Merging input locals s bit now ready run ret) (hs : SplitDone input locals s)
    (hflags : AsksFf input .write ↔ AsksFf input .except) (hunstale : Unstale input locals) :
    ret + run.kernel_ret =
      countSets input.limit.toNat (given run s input.words.toNat input.ff_kernel_max_fd) := by
  have hlimit := limit_le_words input
  have hkind : ∀ kind, countSet input.limit.toNat (given run s input.words.toNat input.ff_kernel_max_fd kind) =
      countSet input.limit.toNat (run.fds kind) +
        countSet (if s.haveFf then s.max_ff_fd + 1 else locals.nfds)
          (if s.have_ff kind then some (run.share kind) else none) := by
    intro kind
    by_cases hflag : s.have_ff kind = true
    · have hasks : AsksFf input kind := (asksFf_flag hflags kind).mp (hs.haveFf_iff.mp hflag)
      have hsome : input.fds kind ≠ none := by
        obtain ⟨x, hx⟩ := hasks
        exact hx.isSome
      obtain ⟨before, hbefore⟩ := Option.ne_none_iff_exists'.mp hsome
      obtain ⟨old, hold⟩ := Option.ne_none_iff_exists'.mp fun hnone => hsome ((h.holding.null kind).mp hnone)
      obtain ⟨set, hset⟩ : ∃ set, given run s input.words.toNat input.ff_kernel_max_fd kind = some set :=
        Option.ne_none_iff_exists'.mp fun hnone => hsome (((h.given_holding hs hflags hunstale).null kind).mp hnone)
      have holdbit : ∀ x < input.limit.toNat, old x = true ↔ bit kind x := by
        intro x hx
        have hiff := h.holding.bits kind old hold before hbefore x
        rwa [if_pos (by omega)] at hiff
      rw [hset, hold, if_pos hflag, if_pos (hs.anyFf hasks)]
      unfold countSet
      dsimp only
      apply count_both
      · exact fun x hx hbit => (h.requested kind x ((holdbit x hx).mp hbit)).2
      · intro x hx
        rw [given_iff _ _ hold hset]
        refine or_congr_right ⟨fun hall => ⟨hall.2.1, hall.2.2.2⟩, fun hall => ⟨hflag, hall.1, ?_, hall.2⟩⟩
        omega
      · intro y hy hbit
        have hlt : y < 64 * s.ffWords := by
          rw [hs.ffWords_eq hasks]
          omega
        rw [h.share kind hasks, if_pos hlt] at hbit
        exact hbit.1.lt_limit
      · intro y hy hbit
        rw [h.share kind hasks] at hbit
        split at hbit
        · exact Nat.lt_succ_of_le (hs.ff_le kind y hbit.1)
        · rename_i hge
          have hstale := (hunstale kind y hasks ((hs.behind_iff hasks).mp (Nat.not_lt.mp hge)) (by omega) hbit).1
          omega
    · have hsame : given run s input.words.toNat input.ff_kernel_max_fd kind = run.fds kind := if_neg hflag
      rw [hsame, if_neg hflag]
      rfl
  rw [h.found, h.kernel_ret]
  unfold countSets
  rw [hkind, hkind, hkind]
  push_cast
  ring

/-- **The answers are put together rightly** if and only if nothing is stale, and the sets hold no answer of
an earlier round.
SOURCE: adapter/syscall/ff_hook_syscall.c:3048-3077 -/
theorem Merging.right_iff (h : Merging input locals s bit now ready run ret) (hs : SplitDone input locals s)
    (hflags : AsksFf input .write ↔ AsksFf input .except) (hpos : 0 < ret) :
    SelectRight input (match run.giveBack s input.words.toNat input.ff_kernel_max_fd with
        | some run => (run, .returned (ret + run.kernel_ret))
        | none => (run, .fault)) ↔
      Unstale input locals ∧ ∀ kind fd, bit kind fd → now kind fd := by
  have hasks : ∀ kind, s.have_ff kind = true → AsksFf input kind := fun kind hflag =>
    (asksFf_flag hflags kind).mp (hs.haveFf_iff.mp hflag)
  have hsome : ∀ kind, s.have_ff kind = true → run.fds kind ≠ none := by
    intro kind hflag hnone
    obtain ⟨x, hx⟩ := hasks kind hflag
    exact hx.isSome ((h.holding.null kind).mp hnone)
  rw [giveBack_eq _ _ hsome]
  dsimp only
  have hnonneg : 0 ≤ ret + run.kernel_ret := by
    rw [h.kernel_ret]
    omega
  have hreported : ∀ kind fd, Reported input { run with fds := given run s input.words.toNat input.ff_kernel_max_fd }
      kind fd ↔ Reported input run kind fd := fun _ _ => Iff.rfl
  constructor
  · intro hright
    have hset : ∀ kind, input.fds kind ≠ none →
        ∃ before ∈ input.fds kind, ∃ old, run.fds kind = some old ∧
          ∃ set, given run s input.words.toNat input.ff_kernel_max_fd kind = some set := by
      intro kind hne
      obtain ⟨before, hbefore⟩ := Option.ne_none_iff_exists'.mp hne
      obtain ⟨old, hold⟩ := Option.ne_none_iff_exists'.mp fun hnone => hne ((h.holding.null kind).mp hnone)
      obtain ⟨set, hset⟩ := Option.ne_none_iff_exists'.mp fun hnone => hne ((hright.null kind).mp hnone)
      exact ⟨before, hbefore, old, hold, set, hset⟩
    refine ⟨fun kind fd hask hall hlt hstale => ?_, fun kind fd hbit => ?_⟩
    · obtain ⟨before, hbefore, old, hold, set, hset⟩ := hset kind (by
        obtain ⟨x, hx⟩ := hask
        exact hx.isSome)
      have hbehind := (hs.behind_iff hask).mpr hall
      have hbit : set (fd + input.ff_kernel_max_fd) = true := by
        rw [given_iff _ _ hold hset, Nat.add_sub_cancel, h.share kind hask, if_neg (Nat.not_lt.mpr hbehind)]
        exact Or.inr ⟨hs.haveFf_iff.mpr ((asksFf_flag hflags kind).mpr hask), Nat.le_add_left _ _, hlt, hstale⟩
      rw [hright.sets _ rfl hnonneg kind set hset before hbefore, hreported, h.reported] at hbit
      split at hbit
      · exfalso
        rcases hbit with hnow | ⟨-, hreq, -⟩
        · have hmax := (h.requested kind _ (h.fresh kind _ hnow)).2
          omega
        · exact Nat.lt_irrefl _ (hall kind fd hreq)
      · rename_i hout
        exact ⟨Nat.not_lt.mp hout, before, hbefore, hbit⟩
    · obtain ⟨hreq, hmax⟩ := h.requested kind fd hbit
      obtain ⟨before, hbefore, old, hold, set, hset⟩ := hset kind hreq.isSome
      have hold' : old fd = true := by
        rw [h.holding.bits kind old hold before hbefore, if_pos hreq.lt_words]
        exact hbit
      have hset' : set fd = true := (given_iff _ _ hold hset fd).mpr (Or.inl hold')
      rw [hright.sets _ rfl hnonneg kind set hset before hbefore, if_pos hreq.lt_words, hreported, h.reported] at hset'
      rcases hset' with hnow | ⟨hle, -⟩
      · exact hnow
      · omega
  · rintro ⟨hunstale, hnow⟩
    have hgiven := h.given_holding hs hflags hunstale
    constructor
    case passed => exact h.passed
    case both => exact fun _ _ _ => h.both
    case null => exact hgiven.null
    case sets =>
      intro _ _ _ kind set hset before hbefore fd
      rw [hgiven.bits kind set hset before hbefore, hreported, h.reported]
      have hsame : bit kind fd ↔ now kind fd := ⟨hnow kind fd, h.fresh kind fd⟩
      rw [hsame]
    case count =>
      rintro _ ⟨⟩ -
      exact h.count hs hflags hunstale
    case memory => exact fun hfault => by cases hfault

end Merge

/-! ## The rounds -/

/-- What the kernel found in the round before. -/
def KernelBit (input : SelectInput) (prev : SelectAnswer) (kind : SelectKind) (fd : ℕ) : Prop :=
  ∃ ready ∈ prev, Requested input kind fd ∧ fd < input.ff_kernel_max_fd ∧ ready kind fd = true

/-- What holds at the beginning of a round; `prev` is the answer of the kernel in the round before. -/
structure RoundStart (input : SelectInput) (locals : SelectLocals) (s : SelectSplit) (prev : SelectAnswer)
    (run : SelectRun) : Prop where
  holding : Holding input (KernelBit input prev) run.fds
  kernel_ret : run.kernel_ret = countSets input.limit.toNat run.fds
  share : ∀ kind fd, 64 * s.ffWords ≤ fd → run.share kind fd = locals.share kind fd
  asked : run.asked = true ↔ AsksKernel input ∧ prev ≠ none
  passed : ∀ call ∈ run.calls, CallRight input call
  rounds : ∀ call ∈ run.calls, call.round ≤ run.round
  called : run.asked = true → ∃ call ∈ run.calls, call.kernel = true

/-- What holds in a round when F-Stack has answered. -/
structure FfAsked (input : SelectInput) (locals : SelectLocals) (s : SelectSplit) (prev : SelectAnswer)
    (ready : SelectKind → ℕ → Bool) (run : SelectRun) (ret : ℤ) : Prop where
  holding : Holding input (KernelBit input prev) run.fds
  kernel_ret : run.kernel_ret = countSets input.limit.toNat run.fds
  share : ∀ kind, AsksFf input kind → ∀ fd, run.share kind fd = true ↔
    if fd < 64 * s.ffWords then Requested input kind (fd + input.ff_kernel_max_fd) ∧ ready kind fd = true
    else locals.share kind fd = true
  behind : ∀ kind fd, 64 * s.ffWords ≤ fd → run.share kind fd = locals.share kind fd
  asked : run.asked = true ↔ AsksKernel input ∧ prev ≠ none
  passed : ∀ call ∈ run.calls, CallRight input call
  called : run.asked = true → ∃ call ∈ run.calls, call.kernel = true
  found : ret = countSets (if s.haveFf then s.max_ff_fd + 1 else locals.nfds) fun kind =>
    if s.have_ff kind then some (run.share kind) else none
  last : ∃ old call, run.calls = old ++ [call] ∧ (∀ c ∈ old, c.round < run.round) ∧ call.round = run.round ∧
    call.kernel = false ∧ ∀ kind fd, input.ff_kernel_max_fd ≤ fd ∧ Reports call kind (fd - input.ff_kernel_max_fd) ↔
      input.ff_kernel_max_fd ≤ fd ∧ Requested input kind fd ∧ ready kind (fd - input.ff_kernel_max_fd) = true

section Rounds

variable {prev : SelectAnswer} {ready : SelectKind → ℕ → Bool}

/-- A call that fails only has to have asked rightly. -/
theorem SelectRight.of_neg {result : SelectRun × SelectEnd} {ret : ℤ} (hend : result.2 = .returned ret) (hneg : ret < 0)
    (hpassed : ∀ call ∈ result.1.calls, CallRight input call)
    (hnull : ∀ kind, result.1.fds kind = none ↔ input.fds kind = none) : SelectRight input result := by
  have hno : ∀ {p : Prop} (other : ℤ), result.2 = .returned other → 0 ≤ other → p := by
    intro p other hother hle
    rw [hend] at hother
    cases hother
    omega
  constructor
  case passed => exact hpassed
  case both => exact fun ret' hret hle => hno ret' hret hle
  case null => exact hnull
  case sets => exact fun ret' hret hle => hno ret' hret hle
  case count => exact fun ret' hret hle => hno ret' hret hle
  case memory =>
    rw [hend]
    exact fun hfault => by cases hfault

/-- Only the calls of the last round report something. -/
theorem reported_iff {old new : List SelectCall} (hcalls : run.calls = old ++ new)
    (hold : ∀ call ∈ old, call.round < run.round) (hnew : ∀ call ∈ new, call.round = run.round)
    (kind : SelectKind) (fd : ℕ) :
    Reported input run kind fd ↔ ∃ call ∈ new, if call.kernel then Reports call kind fd
      else input.ff_kernel_max_fd ≤ fd ∧ Reports call kind (fd - input.ff_kernel_max_fd) := by
  unfold Reported
  rw [hcalls]
  constructor
  · rintro ⟨call, hcall, hround, hreports⟩
    rcases List.mem_append.mp hcall with hcall | hcall
    · exact absurd hround (Nat.ne_of_lt (hold call hcall))
    · exact ⟨call, hcall, hreports⟩
  · rintro ⟨call, hcall, hreports⟩
    exact ⟨call, List.mem_append_right _ hcall, hnew call hcall, hreports⟩

/-- What F-Stack reports, as the caller numbers it. -/
theorem ffCall_reports (hs : SplitDone input locals s) (hflags : AsksFf input .write ↔ AsksFf input .except)
    (ready : SelectKind → ℕ → Bool) (kind : SelectKind) (fd : ℕ) :
    input.ff_kernel_max_fd ≤ fd ∧ Reports (ffCall run s locals (some ready)) kind (fd - input.ff_kernel_max_fd) ↔
      input.ff_kernel_max_fd ≤ fd ∧ Requested input kind fd ∧ ready kind (fd - input.ff_kernel_max_fd) = true := by
  refine and_congr_right fun hle => ?_
  have hright : Asks (ffCall run s locals (some ready)) kind (fd - input.ff_kernel_max_fd) ↔
      Requested input kind (fd - input.ff_kernel_max_fd + input.ff_kernel_max_fd) :=
    ffCall_right hs hflags (some ready) kind (fd - input.ff_kernel_max_fd)
  rw [Nat.sub_add_cancel hle] at hright
  unfold Reports
  rw [hright]
  refine and_congr_right fun _ => ⟨?_, fun hready => ⟨ready, rfl, hready⟩⟩
  rintro ⟨_, ⟨⟩, hready⟩
  exact hready

/-- What the kernel reports. -/
theorem kernelCall_reports (hs : SplitDone input locals s) (hasks : AsksKernel input)
    (hnull : ∀ kind, run.fds kind = none ↔ input.fds kind = none) (ready : SelectKind → ℕ → Bool)
    (kind : SelectKind) (fd : ℕ) :
    Reports (kernelCall run s (some ready)) kind fd ↔
      Requested input kind fd ∧ fd < input.ff_kernel_max_fd ∧ ready kind fd = true := by
  have hright : Asks (kernelCall run s (some ready)) kind fd ↔
      Requested input kind fd ∧ fd < input.ff_kernel_max_fd := kernelCall_right hs hasks hnull (some ready) kind fd
  unfold Reports
  rw [hright, and_assoc]
  refine and_congr_right fun _ => and_congr_right fun _ => ⟨?_, fun hready => ⟨ready, rfl, hready⟩⟩
  rintro ⟨_, ⟨⟩, hready⟩
  exact hready

/-- INTERNAL: F-Stack answers.
SOURCE: adapter/syscall/ff_hook_syscall.c:2945-2992 -/
theorem RoundStart.askFf (h : RoundStart input locals s prev run) (hs : SplitDone input locals s)
    (hflags : AsksFf input .write ↔ AsksFf input .except) (ready : SelectKind → ℕ → Bool) :
    FfAsked input locals s prev ready (run.askFf s locals (some ready)).1 (run.askFf s locals (some ready)).2 := by
  have hcalls := askFf_calls run s locals (some ready)
  constructor
  case holding => exact h.holding
  case kernel_ret => exact h.kernel_ret
  case share =>
    intro kind hasks fd
    rw [askFf_share hs hflags ready hasks]
    split
    · exact Iff.rfl
    · rename_i hge
      rw [h.share kind fd (Nat.not_lt.mp hge)]
  case behind =>
    intro kind fd hge
    rw [← h.share kind fd hge]
    by_cases hflag : s.have_ff kind = true
    · have hasks : AsksFf input kind := (asksFf_flag hflags kind).mp (hs.haveFf_iff.mp hflag)
      have hiff : (run.askFf s locals (some ready)).1.share kind fd = true ↔ _ :=
        askFf_share hs hflags ready hasks fd
      rw [if_neg (Nat.not_lt.mpr hge)] at hiff
      exact Bool.eq_iff_iff.mpr hiff
    · unfold SelectRun.askFf
      dsimp only
      rw [if_neg hflag, if_neg hflag]
      rfl
  case asked => exact h.asked
  case passed =>
    intro call hcall
    rw [hcalls] at hcall
    rcases List.mem_append.mp hcall with hcall | hcall
    · exact h.passed call hcall
    · rw [List.mem_singleton.mp hcall]
      exact ffCall_right hs hflags (some ready)
  case called =>
    intro hasked
    obtain ⟨call, hcall, hkernel⟩ := h.called hasked
    exact ⟨call, hcalls ▸ List.mem_append_left _ hcall, hkernel⟩
  case found => exact askFf_ret_eq ready
  case last =>
    refine ⟨run.calls, ffCall run s locals (some ready), hcalls, fun c hc => ?_, rfl, rfl,
      ffCall_reports hs hflags ready⟩
    exact Nat.lt_succ_of_le (h.rounds c hc)

variable {ret : ℤ}

/-- F-Stack was asked, and the kernel too if `called` says so. -/
theorem FfAsked.both (h : FfAsked input locals s prev ready run ret) {calls : List SelectCall}
    (hsub : ∀ call ∈ run.calls, call ∈ calls) (hkernel : AsksKernel input → ∃ call ∈ calls, call.kernel = true)
    (kind : SelectKind) (fd : ℕ) (hreq : Requested input kind fd) :
    ∃ call ∈ calls, call.kernel = decide (fd < input.ff_kernel_max_fd) := by
  by_cases hmax : fd < input.ff_kernel_max_fd
  · rw [decide_eq_true hmax]
    exact hkernel ⟨kind, fd, hreq, hmax⟩
  · rw [decide_eq_false hmax]
    obtain ⟨old, call, hcalls, -, -, hff, -⟩ := h.last
    exact ⟨call, hsub call (hcalls ▸ List.mem_append_right _ List.mem_cons_self), hff⟩

/-- What is reported in a round in which the kernel is not asked. -/
theorem FfAsked.reported_iff (h : FfAsked input locals s prev ready run ret) (kind : SelectKind) (fd : ℕ) :
    Reported input run kind fd ↔ input.ff_kernel_max_fd ≤ fd ∧ Requested input kind fd ∧
      ready kind (fd - input.ff_kernel_max_fd) = true := by
  obtain ⟨old, call, hcalls, hold, hround, hff, hreports⟩ := h.last
  rw [Analysis.reported_iff hcalls hold fun c hc => by rw [List.mem_singleton.mp hc, hround], ← hreports kind fd]
  constructor
  · rintro ⟨c, hc, hrep⟩
    rw [List.mem_singleton.mp hc, hff, if_neg Bool.false_ne_true] at hrep
    exact hrep
  · intro hrep
    refine ⟨call, List.mem_cons_self, ?_⟩
    rw [hff, if_neg Bool.false_ne_true]
    exact hrep

/-- What is reported in a round in which the kernel answers. -/
theorem FfAsked.reported_kernel_iff (h : FfAsked input locals s prev ready run ret) (hs : SplitDone input locals s)
    (hasks : AsksKernel input) (found : SelectKind → ℕ → Bool) (kind : SelectKind) (fd : ℕ) :
    Reported input (run.askKernel s (some found)).1 kind fd ↔
      (Requested input kind fd ∧ fd < input.ff_kernel_max_fd ∧ found kind fd = true) ∨
        input.ff_kernel_max_fd ≤ fd ∧ Requested input kind fd ∧
          ready kind (fd - input.ff_kernel_max_fd) = true := by
  obtain ⟨old, call, hcalls, hold, hround, hff, hreports⟩ := h.last
  have hall : (run.askKernel s (some found)).1.calls = old ++ [call, kernelCall run s (some found)] := by
    rw [askKernel_calls, hcalls, List.append_assoc]
    rfl
  have hsame : (run.askKernel s (some found)).1.round = run.round := rfl
  rw [Analysis.reported_iff hall hold fun c hc => by
    rcases List.mem_cons.mp hc with rfl | hc
    · rw [hround, hsame]
    · rw [List.mem_singleton.mp hc]
      rfl]
  rw [← hreports kind fd, ← kernelCall_reports hs hasks h.holding.null found kind fd]
  constructor
  · rintro ⟨c, hc, hrep⟩
    rcases List.mem_cons.mp hc with rfl | hc
    · rw [hff, if_neg Bool.false_ne_true] at hrep
      exact Or.inr hrep
    · rw [List.mem_singleton.mp hc] at hrep
      exact Or.inl hrep
  · rintro (hrep | hrep)
    · exact ⟨kernelCall run s (some found), List.mem_cons_of_mem _ List.mem_cons_self, hrep⟩
    · refine ⟨call, List.mem_cons_self, ?_⟩
      rw [hff, if_neg Bool.false_ne_true]
      exact hrep

/-- The calls of a run in which the kernel was asked too. -/
theorem FfAsked.passed_kernel (h : FfAsked input locals s prev ready run ret) (hs : SplitDone input locals s)
    (hasks : AsksKernel input) (answer : SelectAnswer) :
    ∀ call ∈ (run.askKernel s answer).1.calls, CallRight input call := by
  intro call hcall
  rw [askKernel_calls] at hcall
  rcases List.mem_append.mp hcall with hcall | hcall
  · exact h.passed call hcall
  · rw [List.mem_singleton.mp hcall]
    exact kernelCall_right hs hasks h.holding.null answer

/-- The sets that are not given stay so. -/
theorem askKernel_null (s : SelectSplit) (answer : SelectAnswer) (kind : SelectKind) :
    (run.askKernel s answer).1.fds kind = none ↔ run.fds kind = none := by
  cases answer with
  | none =>
    change (run.fds kind).map _ = none ↔ _
    rw [Option.map_eq_none_iff]
  | some found =>
    change ((run.fds kind).map _).map _ = none ↔ _
    rw [Option.map_eq_none_iff, Option.map_eq_none_iff]

/-- F-Stack found something in a later round, or there is nothing of the kernel. -/
theorem FfAsked.mergeOld (h : FfAsked input locals s prev ready run ret)
    (hasked : AsksKernel input → run.asked = true) :
    Merging input locals s (KernelBit input prev) (fun _ _ => False) ready run ret where
  holding := h.holding
  requested _ _ := fun ⟨_, _, hreq, hmax, _⟩ => ⟨hreq, hmax⟩
  kernel_ret := h.kernel_ret
  share := h.share
  found := h.found
  passed := h.passed
  both := h.both (fun _ hcall => hcall) fun hasks => h.called (hasked hasks)
  reported kind fd := (h.reported_iff kind fd).trans (or_iff_right id).symm
  fresh _ _ := False.elim

/-- F-Stack found something in the first round, and the kernel answers. -/
theorem FfAsked.mergeKernel (h : FfAsked input locals s prev ready run ret) (hs : SplitDone input locals s)
    (hasks : AsksKernel input) (found : SelectKind → ℕ → Bool) :
    Merging input locals s
      (fun kind fd => Requested input kind fd ∧ fd < input.ff_kernel_max_fd ∧ found kind fd = true)
      (fun kind fd => Requested input kind fd ∧ fd < input.ff_kernel_max_fd ∧ found kind fd = true) ready
      (run.askKernel s (some found)).1 ret := by
  obtain ⟨hholding, hcount⟩ := askKernel_holding hs hasks h.holding
    (fun _ _ ⟨_, _, hreq, hmax, _⟩ => ⟨hreq, hmax⟩) found
  constructor
  case holding => exact hholding
  case requested => exact fun _ _ hall => ⟨hall.1, hall.2.1⟩
  case kernel_ret => exact hcount
  case share => exact h.share
  case found => exact h.found
  case passed => exact h.passed_kernel hs hasks (some found)
  case both =>
    apply h.both
    · intro call hcall
      rw [askKernel_calls]
      exact List.mem_append_left _ hcall
    · intro _
      rw [askKernel_calls]
      exact ⟨_, List.mem_append_right _ List.mem_cons_self, rfl⟩
  case reported => exact h.reported_kernel_iff hs hasks found
  case fresh => exact fun _ _ hall => hall

/-- Behind `select_exit` nothing happens when F-Stack found nothing and the kernel need not be asked. -/
theorem exit_of_nothing (hkernel : (s.have_kernel_fd && !run.asked) = false) {ret : ℤ} (hret : ¬ 0 < ret)
    (words max : ℕ) (answer : SelectAnswer) :
    run.exit s words max ret answer = (run, .returned (ret + run.kernel_ret)) := by
  unfold SelectRun.exit
  rw [hkernel, if_neg Bool.false_ne_true]
  dsimp only
  rw [if_pos rfl, if_neg hret]

/-- **F-Stack found something**.
SOURCE: adapter/syscall/ff_hook_syscall.c:2989-2991, 3030-3077 -/
theorem FfAsked.exit_right_iff (h : FfAsked input locals s prev ready run ret) (hs : SplitDone input locals s)
    (hflags : AsksFf input .write ↔ AsksFf input .except) (hpos : 0 < ret) (answer : SelectAnswer) :
    SelectRight input (run.exit s input.words.toNat input.ff_kernel_max_fd ret answer) ↔
      AsksKernel input ∧ prev = none ∧ answer = none ∨
        Unstale input locals ∧ ∀ before ∈ prev, ¬ KernelFinds input before := by
  unfold SelectRun.exit
  by_cases hfirst : (s.have_kernel_fd && !run.asked) = true
  · -- the first round: the kernel is asked now
    rw [if_pos hfirst]
    rw [Bool.and_eq_true, Bool.not_eq_true'] at hfirst
    have hasks : AsksKernel input := hs.have_kernel.mp hfirst.1
    have hprev : prev = none := by
      by_contra hne
      exact Bool.false_ne_true (hfirst.2.symm.trans (h.asked.mpr ⟨hasks, hne⟩))
    cases answer with
    | none =>
      refine iff_of_true ?_ (Or.inl ⟨hasks, hprev, rfl⟩)
      refine SelectRight.of_neg (show _ = SelectEnd.returned (-1) from rfl) (by decide) ?_ ?_
      · exact h.passed_kernel hs hasks none
      · exact fun kind => (askKernel_null s none kind).trans (h.holding.null kind)
    | some found =>
      have hmerge := (h.mergeKernel hs hasks found).right_iff hs hflags hpos
      have hcall : run.askKernel s (some found) = ((run.askKernel s (some found)).1, true) := rfl
      rw [hcall]
      dsimp only
      rw [if_pos rfl, if_pos hpos]
      refine hmerge.trans ?_
      rw [hprev]
      constructor
      · exact fun hall => Or.inr ⟨hall.1, fun before hbefore => by cases hbefore⟩
      · rintro (⟨-, -, hnone⟩ | hall)
        · cases hnone
        · exact ⟨hall.1, fun _ _ hbit => hbit⟩
  · rw [if_neg hfirst]
    dsimp only
    rw [if_pos rfl, if_pos hpos]
    have hasked : AsksKernel input → run.asked = true := by
      intro hasks
      have hkernel := hs.have_kernel.mpr hasks
      by_contra hno
      rw [hkernel, Bool.eq_false_iff.mpr hno] at hfirst
      exact hfirst rfl
    refine ((h.mergeOld hasked).right_iff hs hflags hpos).trans ?_
    constructor
    · rintro ⟨hunstale, hnone⟩
      refine Or.inr ⟨hunstale, fun before hbefore ⟨kind, fd, hfinds⟩ => hnone kind fd ⟨before, hbefore, hfinds⟩⟩
    · rintro (⟨hasks, hprev, -⟩ | ⟨hunstale, hnone⟩)
      · exact absurd hprev (h.asked.mp (hasked hasks)).2
      · exact ⟨hunstale, fun kind fd ⟨before, hbefore, hfinds⟩ => hnone before hbefore ⟨kind, fd, hfinds⟩⟩

/-- **The time is over**, and F-Stack found nothing.
SOURCE: adapter/syscall/ff_hook_syscall.c:3015-3027, 3075-3077 -/
theorem FfAsked.over_right (h : FfAsked input locals s prev ready run ret) (hs : SplitDone input locals s)
    (hnone : ¬ FfFinds input ready) (words max : ℕ) (answer : SelectAnswer) :
    (¬ AsksKernel input → SelectRight input (run.exit s words max 0 answer)) ∧
      ∀ found, AsksKernel input →
        SelectRight input ((run.askKernel s (some found)).1.exit s words max 0 answer) := by
  have hff : ∀ kind fd, ¬ (input.ff_kernel_max_fd ≤ fd ∧ Requested input kind fd ∧
      ready kind (fd - input.ff_kernel_max_fd) = true) := by
    rintro kind fd ⟨hle, hreq, hready⟩
    exact hnone ⟨kind, _, (Nat.sub_add_cancel hle).symm ▸ hreq, hready⟩
  refine ⟨fun hno => ?_, fun found hasks => ?_⟩
  · have hkernel : s.have_kernel_fd = false := Bool.eq_false_iff.mpr fun htrue => hno (hs.have_kernel.mp htrue)
    have hexit : run.exit s words max 0 answer = (run, .returned (0 + run.kernel_ret)) :=
      exit_of_nothing (by rw [hkernel, Bool.false_and]) (Int.lt_irrefl 0) words max answer
    have hbit : ∀ kind fd, ¬ KernelBit input prev kind fd := fun kind fd ⟨_, _, hreq, hmax, _⟩ => hno ⟨kind, fd, hreq, hmax⟩
    rw [hexit]
    constructor
    case passed => exact h.passed
    case both => exact fun _ _ _ => h.both (fun _ hcall => hcall) fun hasks => absurd hasks hno
    case null => exact h.holding.null
    case sets =>
      intro _ _ _ kind set hset before hbefore fd
      rw [h.holding.bits kind set hset before hbefore, h.reported_iff]
      have hsame := iff_of_false (hbit kind fd) (hff kind fd)
      rw [hsame]
    case count =>
      rintro _ ⟨⟩ -
      rw [Int.zero_add]
      exact h.kernel_ret
    case memory => exact fun hfault => by cases hfault
  · obtain ⟨hholding, hcount⟩ := askKernel_holding hs hasks h.holding
      (fun _ _ ⟨_, _, hreq, hmax, _⟩ => ⟨hreq, hmax⟩) found
    have hexit : (run.askKernel s (some found)).1.exit s words max 0 answer =
        ((run.askKernel s (some found)).1, .returned (0 + (run.askKernel s (some found)).1.kernel_ret)) :=
      exit_of_nothing (Bool.and_false _) (Int.lt_irrefl 0) words max answer
    have hmerge := h.mergeKernel hs hasks found
    rw [hexit]
    constructor
    case passed => exact hmerge.passed
    case both => exact fun _ _ _ => hmerge.both
    case null => exact hholding.null
    case sets =>
      intro _ _ _ kind set hset before hbefore fd
      rw [hholding.bits kind set hset before hbefore, h.reported_kernel_iff hs hasks, or_iff_left (hff kind fd)]
    case count =>
      rintro _ ⟨⟩ -
      rw [Int.zero_add]
      exact hcount
    case memory => exact fun hfault => by cases hfault

/-- **The next round**.
SOURCE: adapter/syscall/ff_hook_syscall.c:2994-3029 -/
theorem FfAsked.next (h : FfAsked input locals s prev ready run ret) (hs : SplitDone input locals s)
    (answer : SelectAnswer) :
    (¬ AsksKernel input → RoundStart input locals s answer run) ∧
      ∀ found, AsksKernel input → RoundStart input locals s (some found) (run.askKernel s (some found)).1 := by
  obtain ⟨old, call, hcalls, hold, hround, -, -⟩ := h.last
  have hrounds : ∀ c ∈ run.calls, c.round ≤ run.round := by
    intro c hc
    rw [hcalls] at hc
    rcases List.mem_append.mp hc with hc | hc
    · exact Nat.le_of_lt (hold c hc)
    · rw [List.mem_singleton.mp hc, hround]
  refine ⟨fun hno => ?_, fun found hasks => ?_⟩
  · have hbit : ∀ prev : SelectAnswer, ∀ kind fd, ¬ KernelBit input prev kind fd :=
      fun _ kind fd ⟨_, _, hreq, hmax, _⟩ => hno ⟨kind, fd, hreq, hmax⟩
    constructor
    case holding =>
      refine ⟨h.holding.null, fun kind set hset before hbefore fd => ?_⟩
      rw [h.holding.bits kind set hset before hbefore]
      have hsame := iff_of_false (hbit prev kind fd) (hbit answer kind fd)
      rw [hsame]
    case kernel_ret => exact h.kernel_ret
    case share => exact h.behind
    case asked => exact iff_of_false (fun hasked => hno (h.asked.mp hasked).1) fun hasks => hno hasks.1
    case passed => exact h.passed
    case rounds => exact hrounds
    case called => exact h.called
  · obtain ⟨hholding, hcount⟩ := askKernel_holding hs hasks h.holding
      (fun _ _ ⟨_, _, hreq, hmax, _⟩ => ⟨hreq, hmax⟩) found
    constructor
    case holding =>
      refine ⟨hholding.null, fun kind set hset before hbefore fd => ?_⟩
      rw [hholding.bits kind set hset before hbefore]
      have hsame : KernelBit input (some found) kind fd ↔
          Requested input kind fd ∧ fd < input.ff_kernel_max_fd ∧ found kind fd = true := by
        constructor
        · rintro ⟨_, ⟨⟩, hall⟩
          exact hall
        · exact fun hall => ⟨found, rfl, hall⟩
      rw [hsame]
    case kernel_ret => exact hcount
    case share => exact h.behind
    case asked => exact iff_of_true rfl ⟨hasks, Option.some_ne_none found⟩
    case passed => exact h.passed_kernel hs hasks (some found)
    case rounds =>
      intro c hc
      rw [askKernel_calls] at hc
      rcases List.mem_append.mp hc with hc | hc
      · exact hrounds c hc
      · rw [List.mem_singleton.mp hc]
        exact le_rfl
    case called =>
      intro _
      rw [askKernel_calls]
      exact ⟨_, List.mem_append_right _ List.mem_cons_self, rfl⟩

/-- Nothing was returned yet. -/
theorem RoundStart.polling_right (h : RoundStart input locals s prev run) : SelectRight input (run, .polling) := by
  have hno : ∀ {p : Prop} (ret : ℤ), SelectEnd.polling = .returned ret → 0 ≤ ret → p :=
    fun ret hret => by cases hret
  constructor
  case passed => exact h.passed
  case both => exact fun ret hret hle => hno ret hret hle
  case null => exact h.holding.null
  case sets => exact fun ret hret hle => hno ret hret hle
  case count => exact fun ret hret hle => hno ret hret hle
  case memory => exact fun hfault => by cases hfault

/-- **The loop** is right if and only if its last round is.
SOURCE: adapter/syscall/ff_hook_syscall.c:2945-3077 -/
theorem RoundStart.right_iff (h : RoundStart input locals s prev run) (hs : SplitDone input locals s)
    (hflags : AsksFf input .write ↔ AsksFf input .except) (start : ℤ) (rs : List SelectRound) :
    SelectRight input (input.rounds locals start s rs run) ↔ EndSafe input locals start prev rs := by
  induction rs generalizing prev run with
  | nil =>
    exact iff_of_true h.polling_right trivial
  | cons r rest ih =>
    unfold SelectInput.rounds EndSafe
    cases hff : r.ff with
    | none =>
      refine iff_of_true ?_ fun ready hready => by cases hready
      refine SelectRight.of_neg (show _ = SelectEnd.returned (-1) from rfl) (by decide) ?_ h.holding.null
      intro call hcall
      have hcalls : call ∈ (run.askFf s locals none).1.calls := hcall
      rw [askFf_calls] at hcalls
      rcases List.mem_append.mp hcalls with hcall | hcall
      · exact h.passed call hcall
      · rw [List.mem_singleton.mp hcall]
        exact ffCall_right hs hflags none
    | some ready =>
      have hasked := h.askFf hs hflags ready
      have hnonneg : 0 ≤ (run.askFf s locals (some ready)).2 := askFf_ret_nonneg ready
      have hpos : 0 < (run.askFf s locals (some ready)).2 ↔ FfFinds input ready := askFf_ret_pos hs hflags ready
      generalize run.askFf s locals (some ready) = r' at hasked hnonneg hpos ⊢
      obtain ⟨run', ret⟩ := r'
      dsimp only at hasked hnonneg hpos ⊢
      rw [if_neg (Int.not_lt.mpr hnonneg)]
      by_cases hfinds : FfFinds input ready
      · rw [if_pos (hpos.mpr hfinds), hasked.exit_right_iff hs hflags (hpos.mpr hfinds)]
        constructor
        · rintro hall _ ⟨⟩
          exact ⟨fun _ => hall, fun hno => absurd hfinds hno⟩
        · exact fun hall => (hall ready rfl).1 hfinds
      · rw [if_neg fun hlt => hfinds (hpos.mp hlt)]
        have hcond : (∀ found ∈ some ready, (FfFinds input found →
              AsksKernel input ∧ prev = none ∧ r.kernel = none ∨
                Unstale input locals ∧ ∀ before ∈ prev, ¬ KernelFinds input before) ∧
            (¬ FfFinds input found → (AsksKernel input → r.kernel ≠ none) → input.timeOver start r.now = false →
              EndSafe input locals start r.kernel rest)) ↔
            ((AsksKernel input → r.kernel ≠ none) → input.timeOver start r.now = false →
              EndSafe input locals start r.kernel rest) := by
          constructor
          · exact fun hall => (hall ready rfl).2 hfinds
          · rintro hall _ ⟨⟩
            exact ⟨fun hyes => absurd hyes hfinds, fun _ => hall⟩
        rw [hcond]
        obtain ⟨hoverOld, hoverNew⟩ :=
          hasked.over_right hs hfinds input.words.toNat input.ff_kernel_max_fd r.kernel
        obtain ⟨hnextOld, hnextNew⟩ := hasked.next hs r.kernel
        by_cases hasks : AsksKernel input
        · rw [if_pos (hs.have_kernel.mpr hasks)]
          cases hkernel : r.kernel with
          | none =>
            -- the kernel fails
            refine iff_of_true ?_ fun hne => absurd rfl (hne hasks)
            have hcall : run'.askKernel s none = ((run'.askKernel s none).1, false) := rfl
            rw [hcall]
            dsimp only
            rw [Bool.not_false, if_pos rfl, exit_of_nothing (Bool.and_false _) (by decide)]
            refine SelectRight.of_neg (show _ = SelectEnd.returned (-1 + -1) from rfl) (by decide) ?_ ?_
            · exact hasked.passed_kernel hs hasks none
            · exact fun kind => (askKernel_null s none kind).trans (hasked.holding.null kind)
          | some found =>
            have hcall : run'.askKernel s (some found) = ((run'.askKernel s (some found)).1, true) := rfl
            rw [hcall]
            dsimp only
            rw [Bool.not_true, if_neg Bool.false_ne_true]
            cases hover : input.timeOver start r.now with
            | true =>
              have hright := hoverNew found hasks
              rw [hkernel] at hright
              rw [if_pos rfl]
              exact iff_of_true hright fun _ hfalse => by cases hfalse
            | false =>
              rw [if_neg Bool.false_ne_true, ih (hnextNew found hasks)]
              exact ⟨fun hall _ _ => hall, fun hall => hall (fun _ hnone => by cases hnone) rfl⟩
        · rw [if_neg fun hyes => hasks (hs.have_kernel.mp hyes)]
          dsimp only
          rw [Bool.not_true, if_neg Bool.false_ne_true]
          cases hover : input.timeOver start r.now with
          | true =>
            rw [if_pos rfl]
            exact iff_of_true (hoverOld hasks) fun _ hfalse => by cases hfalse
          | false =>
            rw [if_neg Bool.false_ne_true, ih (hnextOld hasks)]
            exact ⟨fun hall _ _ => hall, fun hall => hall (fun hyes => absurd hyes hasks) rfl⟩

/-! ## The calls are kept -/

theorem giveKind_calls {kind : SelectKind} (h : run.giveKind s words max kind = some run') :
    run'.calls = run.calls := by
  unfold SelectRun.giveKind at h
  split at h
  · obtain ⟨fds, -, rfl⟩ := Option.map_eq_some_iff.mp h
    rfl
  · cases h
    rfl

theorem giveBack_calls (h : run.giveBack s words max = some run') :
    run'.calls = run.calls := by
  unfold SelectRun.giveBack at h
  obtain ⟨run₁, h₁, h⟩ := Option.bind_eq_some_iff.mp h
  obtain ⟨run₂, h₂, h₃⟩ := Option.bind_eq_some_iff.mp h
  rw [giveKind_calls h₃, giveKind_calls h₂, giveKind_calls h₁]

theorem askKernel_mem (hcall : call ∈ run.calls) (answer : SelectAnswer) :
    call ∈ (run.askKernel s answer).1.calls := by
  rw [askKernel_calls]
  exact List.mem_append_left _ hcall

theorem exit_mem (hcall : call ∈ run.calls) (words max : ℕ) (ret : ℤ) (answer : SelectAnswer) :
    call ∈ (run.exit s words max ret answer).1.calls := by
  have hmem : call ∈ (if (s.have_kernel_fd && !run.asked) = true then run.askKernel s answer
      else (run, true)).1.calls := by
    split
    · exact askKernel_mem hcall answer
    · exact hcall
  unfold SelectRun.exit
  generalize (if (s.have_kernel_fd && !run.asked) = true then run.askKernel s answer else (run, true)) = r at *
  obtain ⟨run', ok⟩ := r
  dsimp only at hmem ⊢
  split
  · split
    · split
      · rename_i hgive
        rw [giveBack_calls hgive]
        exact hmem
      · exact hmem
    · exact hmem
  · exact hmem

theorem rounds_cons_mem {r : SelectRound} {start : ℤ} {rest : List SelectRound}
    (hmem : call ∈ (run.askFf s locals r.ff).1.calls)
    (hrest : ∀ run : SelectRun, call ∈ run.calls → call ∈ (input.rounds locals start s rest run).1.calls) :
    call ∈ (input.rounds locals start s (r :: rest) run).1.calls := by
  unfold SelectInput.rounds
  generalize run.askFf s locals r.ff = asked at *
  obtain ⟨run', ret⟩ := asked
  dsimp only at hmem ⊢
  split
  · exact hmem
  · split
    · exact exit_mem hmem _ _ _ _
    · have hkernel : call ∈ (if s.have_kernel_fd = true then run'.askKernel s r.kernel else (run', true)).1.calls := by
        split
        · exact askKernel_mem hmem r.kernel
        · exact hmem
      generalize (if s.have_kernel_fd = true then run'.askKernel s r.kernel else (run', true)) = r' at *
      obtain ⟨run'', ok⟩ := r'
      dsimp only at hkernel ⊢
      split
      · exact exit_mem hkernel _ _ _ _
      · split
        · exact exit_mem hkernel _ _ _ _
        · exact hrest run'' hkernel

theorem rounds_mem (hcall : call ∈ run.calls) (start : ℤ) (rs : List SelectRound) :
    call ∈ (input.rounds locals start s rs run).1.calls := by
  induction rs generalizing run with
  | nil => exact hcall
  | cons r rest ih =>
    apply rounds_cons_mem
    · rw [askFf_calls]
      exact List.mem_append_left _ hcall
    · exact fun run' hrun => ih hrun

end Rounds

/-! ## The hook -/

/-- The run before the first round. -/
def startRun (input : SelectInput) (locals : SelectLocals) : SelectRun :=
  ⟨fun kind => (input.fds kind).map (·.clear input.words.toNat), locals.share, 0, false, 0, []⟩

theorem roundStart_startRun (input : SelectInput) (locals : SelectLocals) (s : SelectSplit) :
    RoundStart input locals s none (startRun input locals) := by
  have hnone : ∀ kind fd, ¬ KernelBit input none kind fd := fun _ _ ⟨_, hready, _⟩ => by cases hready
  have hholding : Holding input (KernelBit input none) (startRun input locals).fds := by
    refine ⟨fun kind => Option.map_eq_none_iff, fun kind set hset before hbefore fd => ?_⟩
    obtain ⟨old, hold, rfl⟩ := Option.mem_map.mp hset
    rw [Option.mem_def.mp hbefore] at hold
    cases hold
    rw [clear_iff]
    split
    · rename_i hin
      exact iff_of_false (fun h => h.1 hin) (hnone kind fd)
    · rename_i hout
      exact and_iff_right hout
  constructor
  case holding => exact hholding
  case kernel_ret =>
    have hzero : countSets 0 (startRun input locals).fds = 0 := by
      by_contra hne
      obtain ⟨kind, hkind⟩ := (countSets_ne_zero 0 _).mp hne
      unfold countSet at hkind
      split at hkind
      · exact hkind rfl
      · exact hkind (Nat.count_zero _)
    rw [← hholding.count_bound (fun kind fd h => absurd h (hnone kind fd)) (Nat.zero_le _), hzero]
    rfl
  case share => exact fun _ _ _ => rfl
  case asked => exact iff_of_false Bool.false_ne_true fun h => h.2 rfl
  case passed => exact fun call hcall => by cases hcall
  case rounds => exact fun call hcall => by cases hcall
  case called => exact fun hasked => by cases hasked

/-- **If F-Stack is asked rightly once, the flags are right**. -/
theorem flags_of_passed (hs : SplitDone input locals s) (hright : CallRight input (ffCall run s locals answer)) :
    AsksFf input .write ↔ AsksFf input .except := by
  have hflag : ∀ kind, AsksFf input kind → AsksFf input kind.flag := by
    rintro kind ⟨fd, hreq⟩
    exact hs.haveFf_iff.mp (ffCall_flag ((hright kind fd).mpr hreq))
  exact ⟨hflag .write, hflag .except⟩

/-- The rounds are reached. -/
theorem ff_hook_select_rounds (hmax : input.ff_kernel_max_fd < 1024) (hshares : input.shares = true)
    (hwords : ¬ (input.words < 0 ∧ ∃ kind ∈ [SelectKind.read, .write, .except], (input.fds kind).isSome = true))
    (hclock : ¬ (input.timeout.isSome && input.clock.isNone) = true) (locals : SelectLocals)
    (rs : List SelectRound) :
    input.ff_hook_select locals rs =
      input.rounds locals (input.clock.getD 0) (input.split locals) rs (startRun input locals) := by
  unfold SelectInput.ff_hook_select
  dsimp only
  rw [if_neg (Nat.not_le.mpr hmax), hshares, Bool.not_true, if_neg Bool.false_ne_true, if_neg hwords, if_neg hclock]
  rfl

/-- **The clock fails**: the kernel is asked, and one less than what it finds is returned.
SOURCE: adapter/syscall/ff_hook_syscall.c:2924-2929, 3030-3077 -/
theorem exit_early_iff (hs : SplitDone input locals s) :
    SelectRight input ((startRun input locals).exit s input.words.toNat input.ff_kernel_max_fd (-1) input.early) ↔
      ∀ ready ∈ input.early, ¬ KernelFinds input ready := by
  have hstart := roundStart_startRun input locals s
  by_cases hasks : AsksKernel input
  · unfold SelectRun.exit
    have hask : (s.have_kernel_fd && !(startRun input locals).asked) = true := by
      rw [hs.have_kernel.mpr hasks]
      rfl
    rw [if_pos hask]
    have hpassed : ∀ answer, ∀ call ∈ ((startRun input locals).askKernel s answer).1.calls, CallRight input call := by
      intro answer call hcall
      rw [askKernel_calls] at hcall
      rw [List.mem_singleton.mp hcall]
      exact kernelCall_right hs hasks hstart.holding.null answer
    have hnull : ∀ answer kind, ((startRun input locals).askKernel s answer).1.fds kind = none ↔ input.fds kind = none :=
      fun answer kind => (askKernel_null s answer kind).trans (hstart.holding.null kind)
    cases hearly : input.early with
    | none =>
      refine iff_of_true ?_ fun ready hready => by cases hready
      exact SelectRight.of_neg (show _ = SelectEnd.returned (-1) from rfl) (by decide) (hpassed none) (hnull none)
    | some ready =>
      obtain ⟨hholding, hcount⟩ := askKernel_holding hs hasks hstart.holding
        (fun _ _ ⟨_, _, hreq, hmax, _⟩ => ⟨hreq, hmax⟩) ready
      have hcall : (startRun input locals).askKernel s (some ready) =
          (((startRun input locals).askKernel s (some ready)).1, true) := rfl
      have hfinds : countSets input.limit.toNat ((startRun input locals).askKernel s (some ready)).1.fds ≠ 0 ↔
          KernelFinds input ready := (countSets_ne_zero _ _).trans
            (exists_congr fun kind => hholding.countSet_ne_zero kind fun fd hall => ⟨hall.1.lt_limit, hall.1.isSome⟩)
      rw [hcall]
      dsimp only
      rw [if_pos rfl, if_neg (by decide)]
      have hall : (∀ found ∈ some ready, ¬ KernelFinds input found) ↔ ¬ KernelFinds input ready :=
        ⟨fun h => h ready rfl, fun h found hfound => by cases hfound; exact h⟩
      rw [hall, ← hfinds, not_not]
      constructor
      · intro hright
        by_contra hne
        have hret := hright.count _ rfl (by rw [hcount]; omega)
        rw [hcount] at hret
        dsimp only at hret
        omega
      · intro hzero
        refine SelectRight.of_neg rfl ?_ (hpassed (some ready)) (hnull (some ready))
        rw [hcount, hzero]
        decide
  · have hkernel : s.have_kernel_fd = false := Bool.eq_false_iff.mpr fun htrue => hasks (hs.have_kernel.mp htrue)
    rw [exit_of_nothing (by rw [hkernel, Bool.false_and]) (by decide)]
    refine iff_of_true ?_ fun ready _ ⟨kind, fd, hreq, hlt, _⟩ => hasks ⟨kind, fd, hreq, hlt⟩
    refine SelectRight.of_neg (show _ = SelectEnd.returned (-1 + 0) from rfl) (by decide) ?_ hstart.holding.null
    exact fun call hcall => by cases hcall

/-- **`ff_hook_select` splits and merges faithfully** if and only if the length of the sets is not negative, the clock
does not fail while the kernel has something, the second set has descriptors of F-Stack if and only if the third has,
and, when F-Stack finds something, nothing is stale and the kernel had nothing in the round before.
SOURCE: adapter/syscall/ff_hook_syscall.c:2771-3078 -/
theorem select_right_iff (input : SelectInput) (locals : SelectLocals) (rs : List SelectRound)
    (hmax : input.ff_kernel_max_fd < 1024) :
    SelectRight input (input.ff_hook_select locals rs) ↔
      (input.shares = true → SelectSafe input locals rs) := by
  have hs : SplitDone input locals (input.split locals) := split_requested input locals
  have hstart := roundStart_startRun input locals (input.split locals)
  unfold SelectInput.ff_hook_select
  dsimp only
  rw [if_neg (Nat.not_le.mpr hmax)]
  cases hshares : input.shares with
  | false =>
    rw [Bool.not_false, if_pos rfl]
    refine iff_of_true ?_ fun htrue => by cases htrue
    refine SelectRight.of_neg (show _ = SelectEnd.returned (-1) from rfl) (by decide) ?_ fun _ => Iff.rfl
    exact fun call hcall => by cases hcall
  | true =>
    rw [Bool.not_true, if_neg Bool.false_ne_true]
    refine Iff.trans ?_ (forall_prop_of_true rfl).symm
    by_cases hwords : input.words < 0 ∧ ∃ kind ∈ [SelectKind.read, .write, .except], (input.fds kind).isSome = true
    · rw [if_pos hwords]
      refine iff_of_false (fun hright => hright.memory rfl) fun hsafe => ?_
      obtain ⟨hneg, kind, -, hsome⟩ := hwords
      rw [hsafe.words hneg kind] at hsome
      cases hsome
    · rw [if_neg hwords]
      have hnull : input.words < 0 → ∀ kind, input.fds kind = none := by
        intro hneg kind
        by_contra hsome
        exact hwords ⟨hneg, kind, by cases kind <;> simp, Option.isSome_iff_ne_none.mpr hsome⟩
      by_cases hclock : (input.timeout.isSome && input.clock.isNone) = true
      · -- the clock fails
        rw [if_pos hclock]
        rw [Bool.and_eq_true, Option.isNone_iff_eq_none] at hclock
        refine (exit_early_iff hs).trans ⟨fun hearly => ⟨hnull, fun _ _ => hearly, ?_, ?_⟩, fun hsafe => ?_⟩
        · exact fun hfine => absurd hclock.2 (hfine hclock.1)
        · exact fun hfine => absurd hclock.2 (hfine hclock.1)
        · exact hsafe.clock hclock.1 hclock.2
      · rw [if_neg hclock]
        have hfine : input.timeout.isSome = true → input.clock ≠ none := by
          intro htimeout hnone
          rw [htimeout, hnone] at hclock
          exact hclock rfl
        by_cases hflags : AsksFf input .write ↔ AsksFf input .except
        · refine (hstart.right_iff hs hflags (input.clock.getD 0) rs).trans
            ⟨fun hend => ⟨hnull, ?_, fun _ _ => hflags, fun _ => hend⟩, fun hsafe => hsafe.rounds hfine⟩
          exact fun htimeout hnone => absurd hnone (hfine htimeout)
        · cases rs with
          | nil =>
            refine iff_of_true hstart.polling_right ⟨hnull, ?_, ?_, fun _ => trivial⟩
            · exact fun htimeout hnone => absurd hnone (hfine htimeout)
            · exact fun _ hne => absurd rfl hne
          | cons r rest =>
            refine iff_of_false (fun hright => ?_) fun hsafe => hflags (hsafe.flags hfine (List.cons_ne_nil r rest))
            refine hflags (flags_of_passed hs (hright.passed (ffCall (startRun input locals) (input.split locals) locals r.ff)
              ?_))
            apply rounds_cons_mem
            · rw [askFf_calls]
              exact List.mem_append_right _ List.mem_cons_self
            · exact fun run hrun => rounds_mem hrun _ rest

/-- A call with descriptor 3 of the kernel and descriptor 6 of F-Stack in one of its sets. -/
def mixedSelect (kind : SelectKind) : SelectInput where
  nfds := 80
  ff_kernel_max_fd := 64
  fds other := if other = kind then some fun fd => fd == 3 || fd == 70 else none
  timeout := none
  shares := true
  clock := some 0
  early := none

/-- A thread that has not called `select` before, with cleared memory. -/
def freshLocals : SelectLocals := ⟨fun _ _ => false, fun _ _ => false, fun _ _ => false, 0⟩

/-- Both descriptors are ready. -/
def bothReady : SelectRound := ⟨some fun _ _ => true, some fun _ _ => true, 0⟩

/-- Both descriptors of the first set are found in one round. -/
theorem select_right_mixed :
    SelectRight (mixedSelect .read) ((mixedSelect .read).ff_hook_select freshLocals [bothReady]) := by
  apply (select_right_iff (mixedSelect .read) freshLocals [bothReady] (by decide)).mpr
  intro _
  have hnone : ∀ kind, kind ≠ .read → ¬ AsksFf (mixedSelect .read) kind := by
    rintro kind hkind ⟨fd, set, hset, -⟩
    have hfds : (mixedSelect .read).fds kind = none := if_neg hkind
    rw [hfds] at hset
    cases hset
  constructor
  case words => exact fun hneg => absurd hneg (by decide)
  case clock => exact fun htimeout => by cases htimeout
  case flags => exact fun _ _ => iff_of_false (hnone .write (by decide)) (hnone .except (by decide))
  case rounds =>
    intro _ ready _
    refine ⟨fun _ => Or.inr ⟨?_, fun before hbefore => by cases hbefore⟩, fun _ _ _ => trivial⟩
    exact fun _ _ _ _ _ hstale => by cases hstale

/-- With a descriptor of F-Stack in the second set only, F-Stack is not asked for it. -/
theorem not_select_right :
    ¬ ∀ (input : SelectInput) (locals : SelectLocals) (rs : List SelectRound), input.nfds ≤ 1024 →
      input.ff_kernel_max_fd < 1024 → SelectRight input (input.ff_hook_select locals rs) := by
  intro h
  have hright := h (mixedSelect .write) freshLocals [bothReady] (by decide) (by decide)
  have hhook : (mixedSelect .write).ff_hook_select freshLocals [bothReady] =
      (mixedSelect .write).rounds freshLocals 0 ((mixedSelect .write).split freshLocals) [bothReady]
        (startRun (mixedSelect .write) freshLocals) :=
    ff_hook_select_rounds (by decide) rfl (fun hneg => absurd hneg.1 (by decide)) (by decide) _ _
  rw [hhook] at hright
  have hflags := flags_of_passed (split_requested (mixedSelect .write) freshLocals)
    (hright.passed (ffCall (startRun (mixedSelect .write) freshLocals) _ freshLocals bothReady.ff) (by
      apply rounds_cons_mem
      · rw [askFf_calls]
        exact List.mem_append_right _ List.mem_cons_self
      · exact fun run hrun => hrun))
  have hlimit : ((70 : ℕ) : ℤ) < (mixedSelect .write).limit := show (70 : ℤ) < 80 by decide
  obtain ⟨fd, set, hset, -⟩ := hflags.mp ⟨6, fun fd => fd == 3 || fd == 70, rfl, hlimit, rfl⟩
  cases hset

end FStack.Analysis
