import FStack.Analysis.WritevRounds
import Mathlib.Data.List.Flatten
import Mathlib.Data.List.GetD
import Mathlib.Algebra.Order.BigOperators.Group.List
import Mathlib.Algebra.Order.Ring.Int

/-!
# `writev` sends a prefix

What F-Stack accepts of a round is what follows the bytes sent before, as long as it is not more than
`goodLen`; when it is more, there are buffers for which the byte after these is another one than the one that
follows (`writev_prefix_iff`).
-/

set_option autoImplicit false

namespace FStack.Analysis

open FStack.Model FStack.Prelude

variable {bufs : List (List UInt8)}
variable {n sent k target : ℕ} {sh : ShareIov} {slots : List SlotFill} {lens : List ℕ} {answers : ℕ → ℕ}
variable {i off j pos pos' fuel : ℕ}

/-! ## The bytes of a round -/

/-- What is copied from a buffer, by its position. -/
theorem copiedBytes_eq (bufs : List (List UInt8)) (hrange : off + n ≤ (bufs.map List.length).getD i 0) :
    copiedBytes bufs i off n =
        (bufs.flatten.drop (flatStart (bufs.map List.length) i + off)).take n ∧
      (copiedBytes bufs i off n).length = n := by
  by_cases hi : i < bufs.length
  · have hget : (bufs.map List.length).getD i 0 = bufs[i].length := by
      rw [List.getD_eq_getElem _ _ (by simpa using hi), List.getElem_map]
    have hbuf : bufs.getD i [] = bufs[i] := List.getD_eq_getElem bufs [] hi
    rw [hget] at hrange
    have hdrop : bufs.flatten.drop (flatStart (bufs.map List.length) i) =
        bufs[i] ++ (bufs.drop (i + 1)).flatten := by
      rw [flatStart, List.drop_sum_flatten, List.drop_eq_getElem_cons hi, List.flatten_cons]
    rw [copiedBytes, hbuf, ← List.drop_drop, hdrop, List.drop_append_of_le_length (by omega),
      List.take_append_of_le_length (by rw [List.length_drop]; omega)]
    refine ⟨rfl, ?_⟩
    rw [List.length_take, List.length_drop]
    omega
  · have hnone : (bufs.map List.length).getD i 0 = 0 := by
      rw [List.getD_eq_getElem?_getD, List.getElem?_eq_none (by simpa using hi)]
      rfl
    obtain rfl : n = 0 := by omega
    simp [copiedBytes]

/-- The bytes of a slot that the round leaves, or fills. -/
def slotData (bufs : List (List UInt8)) (sh : ShareIov) (j : ℕ) : SlotFill → List UInt8
  | .kept => readAt (sh.mem j) 0 (sh.iov_len j)
  | .copied i off n => copiedBytes bufs i off n

/-- The bytes of the slots from `j` on. -/
def streamFrom (bufs : List (List UInt8)) (sh : ShareIov) : ℕ → List SlotFill → List UInt8
  | _, [] => []
  | j, s :: slots => slotData bufs sh j s ++ streamFrom bufs sh (j + 1) slots

theorem streamFrom_append (sh : ShareIov) (j : ℕ) (a b : List SlotFill) :
    streamFrom bufs sh j (a ++ b) = streamFrom bufs sh j a ++ streamFrom bufs sh (j + a.length) b := by
  induction a generalizing j with
  | nil => rfl
  | cons s a ih =>
    rw [List.cons_append, streamFrom, streamFrom, ih, List.append_assoc, List.length_cons]
    congr 3
    omega

/-- A slot with a lower number does not count. -/
theorem streamFrom_congr {sh' : ShareIov} (h : ∀ s, j ≤ s → sh'.mem s = sh.mem s ∧ sh'.iov_len s = sh.iov_len s)
    (slots : List SlotFill) :
    streamFrom bufs sh' j slots = streamFrom bufs sh j slots := by
  induction slots generalizing j with
  | nil => rfl
  | cons s slots ih =>
    rw [streamFrom, streamFrom, ih fun s hs => h s (by omega)]
    cases s with
    | kept => rw [slotData, slotData, (h j (Nat.le_refl j)).1, (h j (Nat.le_refl j)).2]
    | copied i off n => rfl

/-- A round touches the slots it fills only. -/
theorem fillSlots_outside (bufs : List (List UInt8)) (slots : List SlotFill) :
    ∀ sh j s, s < j ∨ j + slots.length ≤ s →
      (fillSlots bufs sh j slots).mem s = sh.mem s ∧
        (fillSlots bufs sh j slots).iov_len s = sh.iov_len s := by
  induction slots with
  | nil =>
    intro sh j s _
    exact ⟨rfl, rfl⟩
  | cons slot slots ih =>
    intro sh j s hs
    rw [List.length_cons] at hs
    cases slot with
    | kept => exact ih sh (j + 1) s (by omega)
    | copied i off n =>
      rw [fillSlots]
      obtain ⟨hmem, hlen⟩ := ih
        { iov_len := Function.update sh.iov_len j n
          mem := Function.update sh.mem j (writeAt (sh.mem j) 0 (copiedBytes bufs i off n)) }
        (j + 1) s (by omega)
      have hne : s ≠ j := by omega
      exact ⟨hmem.trans (Function.update_of_ne hne _ _), hlen.trans (Function.update_of_ne hne _ _)⟩

/-- What F-Stack finds in the slots that a round has filled. -/
theorem fillSlots_stream (slots : List SlotFill) :
    ∀ sh j, (∀ i off n, SlotFill.copied i off n ∈ slots →
        off + n ≤ (bufs.map List.length).getD i 0) →
      (List.range' j slots.length).flatMap (fun s =>
          readAt ((fillSlots bufs sh j slots).mem s) 0 ((fillSlots bufs sh j slots).iov_len s)) =
        streamFrom bufs sh j slots := by
  induction slots with
  | nil =>
    intro sh j _
    rfl
  | cons slot slots ih =>
    intro sh j hrange
    have hrange' : ∀ i off n, SlotFill.copied i off n ∈ slots →
        off + n ≤ (bufs.map List.length).getD i 0 := by
      intro i off n hmem
      exact hrange i off n (List.mem_cons_of_mem _ hmem)
    rw [List.length_cons, List.range'_succ, List.flatMap_cons]
    cases slot with
    | kept =>
      rw [fillSlots, ih sh (j + 1) hrange', streamFrom, slotData]
      obtain ⟨hmem, hlen⟩ := fillSlots_outside bufs slots sh (j + 1) j (Or.inl (Nat.lt_succ_self j))
      rw [hmem, hlen]
    | copied i off n =>
      rw [fillSlots, ih _ (j + 1) hrange', streamFrom, slotData]
      generalize hsh : ({ iov_len := Function.update sh.iov_len j n
                          mem := Function.update sh.mem j
                            (writeAt (sh.mem j) 0 (copiedBytes bufs i off n)) } : ShareIov) = sh'
      obtain ⟨hmem, hlen⟩ := fillSlots_outside bufs slots sh' (j + 1) j (Or.inl (Nat.lt_succ_self j))
      have hbytes : readAt (sh'.mem j) 0 (sh'.iov_len j) = copiedBytes bufs i off n := by
        have hread := readAt_writeAt_self (sh.mem j) 0 (copiedBytes bufs i off n)
        rw [(copiedBytes_eq bufs (hrange i off n List.mem_cons_self)).2] at hread
        rw [← hsh]
        simpa using hread
      rw [hmem, hlen, hbytes]
      congr 1
      refine streamFrom_congr (fun s hs => ?_) slots
      have hne : s ≠ j := by omega
      rw [← hsh]
      exact ⟨Function.update_of_ne hne _ _, Function.update_of_ne hne _ _⟩

/-- Contiguous slots hold the bytes at their positions. -/
theorem Contiguous.bytes (sh : ShareIov) (h : Contiguous (bufs.map List.length) pos slots pos')
    (hpos : pos ≤ bufs.flatten.length) :
    ∀ j, streamFrom bufs sh j slots = (bufs.flatten.drop pos).take (pos' - pos) ∧ pos ≤ pos' ∧
      pos' ≤ bufs.flatten.length := by
  induction slots generalizing pos with
  | nil =>
    intro j
    obtain rfl : pos = pos' := h
    exact ⟨by simp [streamFrom], Nat.le_refl pos, hpos⟩
  | cons s slots ih =>
    intro j
    cases s with
    | kept => exact absurd h id
    | copied i off n =>
      obtain ⟨rfl, hrange, hn, hrest⟩ := h
      obtain ⟨hbytes, hlen⟩ := copiedBytes_eq bufs hrange
      have hfits : flatStart (bufs.map List.length) i + off + n ≤ bufs.flatten.length := by
        rw [hbytes, List.length_take, List.length_drop] at hlen
        omega
      obtain ⟨hmore, hle, hend⟩ := ih hrest hfits (j + 1)
      have hsum : pos' - (flatStart (bufs.map List.length) i + off) =
          n + (pos' - (flatStart (bufs.map List.length) i + off + n)) := by omega
      rw [streamFrom, slotData, hmore, hbytes, hsum, List.take_add, List.drop_drop]
      exact ⟨rfl, by omega, hend⟩

/-! ## The loop by the lengths of the buffers -/

/-- What a round does, when `sent` bytes have been sent before. -/
def roundFill (lens : List ℕ) (sent : ℕ) : ShareFill := iovecLocal2Share lens 0 IOV_MAX sent

/-- How many bytes F-Stack finds in the slots. -/
def streamLen (f : ShareFill) : ℕ := (f.slots.map SlotFill.iov_len).sum

/-- How many of them it accepts in the round `k`. -/
def acceptedLen (lens : List ℕ) (answers : ℕ → ℕ) (k sent : ℕ) : ℕ :=
  min (answers k) (streamLen (roundFill lens sent))

/-- There is another round after the round `k`. -/
def GoesOn (lens : List ℕ) (answers : ℕ → ℕ) (k sent : ℕ) : Prop :=
  answers k ≠ 0 ∧ acceptedLen lens answers k sent = (roundFill lens sent).total ∧
    (roundFill lens sent).idx_local < lens.length

instance (lens : List ℕ) (answers : ℕ → ℕ) (k sent : ℕ) : Decidable (GoesOn lens answers k sent) :=
  inferInstanceAs (Decidable (_ ∧ _ ∧ _))

theorem roundFill_ok (lens : List ℕ) (sent : ℕ) :
    (roundFill lens sent).slots.length ≤ IOV_MAX ∧
      ∀ s ∈ (roundFill lens sent).slots, SlotOk lens s :=
  share_ok lens 0 IOV_MAX sent rfl

/-- A round has at least one slot, so F-Stack finds at least one byte. -/
theorem streamLen_pos (hlens : lens ≠ []) (sent : ℕ) :
    0 < streamLen (roundFill lens sent) := by
  have hsome : (roundFill lens sent).slots ≠ [] := by
    cases lens with
    | nil => exact absurd rfl hlens
    | cons iov_len lens =>
      rw [roundFill, show IOV_MAX = 15 + 1 from rfl]
      by_cases hskip : iov_len ≤ sent
      · rw [iovecLocal2Share, if_pos hskip]
        exact List.cons_ne_nil _ _
      by_cases hshort : iov_len - sent ≤ IOV_LEN_MAX
      · rw [iovecLocal2Share, if_neg hskip, if_pos hshort]
        exact List.cons_ne_nil _ _
      have hsplit : (splitSegment 0 iov_len (15 + 1) (iov_len - sent)).1 ≠ [] := by
        rw [splitSegment]
        split
        · exact List.cons_ne_nil _ _
        · exact List.cons_ne_nil _ _
      rw [share_long lens 0 15 hshort]
      split
      · exact List.append_ne_nil_of_left_ne_nil hsplit _
      · exact hsplit
  obtain ⟨slot, slots, hslots⟩ := List.exists_cons_of_ne_nil hsome
  have hslot := ((roundFill_ok lens sent).2 slot (by rw [hslots]; exact List.mem_cons_self)).some
  rw [streamLen, hslots, List.map_cons, List.sum_cons]
  omega

theorem length_streamFrom (hlen : ∀ j, sh.iov_len j = IOV_LEN_MAX) (slots : List SlotFill)
    (hok : ∀ s ∈ slots, SlotOk (bufs.map List.length) s) :
    ∀ j, (streamFrom bufs sh j slots).length = (slots.map SlotFill.iov_len).sum := by
  induction slots with
  | nil =>
    intro j
    rfl
  | cons s slots ih =>
    intro j
    obtain ⟨hs, hslots⟩ := List.forall_mem_cons.mp hok
    rw [streamFrom, List.length_append, ih hslots, List.map_cons, List.sum_cons]
    congr 1
    cases s with
    | kept => rw [slotData, length_readAt, hlen, SlotFill.iov_len]
    | copied i off n => exact (copiedBytes_eq bufs (hs.range i off n rfl)).2

/-- The slots after a round. -/
def nextShare (bufs : List (List UInt8)) (sh : ShareIov) (f : ShareFill) : ShareIov :=
  iovecShare2Local (fillSlots bufs sh 0 f.slots) f.slots.length

theorem nextShare_len (hlen : ∀ j, sh.iov_len j = IOV_LEN_MAX) (f : ShareFill) :
    ∀ j, (nextShare bufs sh f).iov_len j = IOV_LEN_MAX := by
  intro j
  rw [nextShare, iovecShare2Local]
  dsimp only
  by_cases hj : j < f.slots.length
  · rw [if_pos hj]
  · rw [if_neg hj, (fillSlots_outside bufs f.slots sh 0 j (Or.inr (by omega))).2, hlen]

/-- **A round of the loop**, by the lengths of the buffers. -/
theorem writevLoop_succ (hlen : ∀ j, sh.iov_len j = IOV_LEN_MAX) (answers : ℕ → ℕ) (fuel k sent : ℕ)
    (handed : List UInt8) (rounds : List (List SlotFill)) :
    writevLoop bufs answers (fuel + 1) k sh sent handed rounds =
      let lens := bufs.map List.length
      let f := roundFill lens sent
      let n := acceptedLen lens answers k sent
      let handed := handed ++ (streamFrom bufs sh 0 f.slots).take n
      if GoesOn lens answers k sent then
        writevLoop bufs answers fuel (k + 1) (nextShare bufs sh f) (sent + n) handed
          (rounds ++ [f.slots])
      else
        some ⟨if 0 < sent + n then ((sent + n : ℕ) : ℤ).bmod (2 ^ 32)
          else if answers k = 0 then -1 else n, handed, rounds ++ [f.slots]⟩ := by
  have hok := (roundFill_ok (bufs.map List.length) sent).2
  have hstream : shareStream (fillSlots bufs sh 0 (roundFill (bufs.map List.length) sent).slots)
      (roundFill (bufs.map List.length) sent).slots.length =
      streamFrom bufs sh 0 (roundFill (bufs.map List.length) sent).slots := by
    rw [shareStream, List.range_eq_range']
    exact fillSlots_stream _ sh 0 fun i off n hmem => (hok _ hmem).range i off n rfl
  have haccepted : min (answers k)
      (streamFrom bufs sh 0 (roundFill (bufs.map List.length) sent).slots).length =
      acceptedLen (bufs.map List.length) answers k sent := by
    rw [length_streamFrom hlen _ hok]
    rfl
  have hgoes : ((if answers k = 0 then (-1 : ℤ)
        else (acceptedLen (bufs.map List.length) answers k sent : ℕ)) =
          ((roundFill (bufs.map List.length) sent).total : ℤ) ∧
        (roundFill (bufs.map List.length) sent).idx_local < bufs.length) ↔
      GoesOn (bufs.map List.length) answers k sent := by
    rw [GoesOn, List.length_map]
    by_cases hfail : answers k = 0
    · rw [if_pos hfail]
      omega
    · rw [if_neg hfail]
      omega
  rw [writevLoop]
  dsimp only
  rw [← roundFill, hstream, haccepted, if_congr hgoes rfl rfl]
  rfl

/-! ## Rounds that send what follows -/

/-- In each round F-Stack accepts no more than what follows the bytes sent before. -/
def PrefixSafe (lens : List ℕ) (answers : ℕ → ℕ) : ℕ → ℕ → ℕ → Prop
  | 0, _, _ => True
  | fuel + 1, k, sent =>
    acceptedLen lens answers k sent ≤ goodLen lens sent ∧
      (GoesOn lens answers k sent →
        PrefixSafe lens answers fuel (k + 1) (sent + acceptedLen lens answers k sent))

/-- What F-Stack has accepted after the last round. -/
def sentTotal (lens : List ℕ) (answers : ℕ → ℕ) : ℕ → ℕ → ℕ → ℕ
  | 0, _, sent => sent
  | fuel + 1, k, sent =>
    if GoesOn lens answers k sent then
      sentTotal lens answers fuel (k + 1) (sent + acceptedLen lens answers k sent)
    else sent + acceptedLen lens answers k sent

/-- No round uses a slot that does not exist, or puts too much into one. -/
def RoundsOk (rounds : List (List SlotFill)) : Prop :=
  ∀ slots ∈ rounds, slots.length ≤ IOV_MAX ∧ ∀ s ∈ slots, s.iov_len ≤ IOV_LEN_MAX

theorem RoundsOk.append {rounds : List (List SlotFill)} (h : RoundsOk rounds) (lens : List ℕ)
    (sent : ℕ) : RoundsOk (rounds ++ [(roundFill lens sent).slots]) := by
  obtain ⟨hlen, hok⟩ := roundFill_ok lens sent
  refine List.forall_mem_append.mpr ⟨h, ?_⟩
  intro slots hslots
  rw [List.mem_singleton.mp hslots]
  exact ⟨hlen, fun s hs => (hok s hs).fits⟩

/-- The stream of a round begins with the bytes that follow, `goodLen` of them. -/
theorem round_stream (sh : ShareIov) (hsent : sent ≤ bufs.flatten.length) :
    ∃ front rest, (roundFill (bufs.map List.length) sent).slots = front ++ rest ∧
      Contiguous (bufs.map List.length) sent front (sent + goodLen (bufs.map List.length) sent) ∧
      NotAt (bufs.map List.length) (sent + goodLen (bufs.map List.length) sent) rest ∧
      streamFrom bufs sh 0 (roundFill (bufs.map List.length) sent).slots =
        (bufs.flatten.drop sent).take (goodLen (bufs.map List.length) sent) ++
          streamFrom bufs sh front.length rest ∧
      sent + goodLen (bufs.map List.length) sent ≤ bufs.flatten.length := by
  obtain ⟨front, rest, hslots, hfront, hrest⟩ := round_split (bufs.map List.length) sent
  obtain ⟨hbytes, -, hend⟩ := hfront.bytes sh hsent 0
  rw [Nat.add_sub_cancel_left] at hbytes
  refine ⟨front, rest, hslots, hfront, hrest, ?_, hend⟩
  rw [roundFill, hslots, streamFrom_append, hbytes, Nat.zero_add]

/-- **As long as every round sends what follows, a prefix has been sent.** -/
theorem run_safe (hbufs : bufs ≠ []) (answers : ℕ → ℕ) (fuel : ℕ) :
    ∀ k sh sent handed rounds, (∀ j, sh.iov_len j = IOV_LEN_MAX) → sent ≤ bufs.flatten.length →
      handed = bufs.flatten.take sent → RoundsOk rounds → bufs.flatten.length < sent + fuel →
      PrefixSafe (bufs.map List.length) answers fuel k sent →
      ∃ r, writevLoop bufs answers fuel k sh sent handed rounds = some r ∧
        sentTotal (bufs.map List.length) answers fuel k sent ≤ bufs.flatten.length ∧
        r.handed = bufs.flatten.take (sentTotal (bufs.map List.length) answers fuel k sent) ∧
        r.ret = (if 0 < sentTotal (bufs.map List.length) answers fuel k sent then
          ((sentTotal (bufs.map List.length) answers fuel k sent : ℕ) : ℤ).bmod (2 ^ 32) else -1) ∧
        RoundsOk r.rounds := by
  have hlens : bufs.map List.length ≠ [] := by
    intro hnil
    exact hbufs (List.map_eq_nil_iff.mp hnil)
  induction fuel with
  | zero =>
    intro k sh sent handed rounds _ hsent _ _ hfuel
    omega
  | succ fuel ih =>
    intro k sh sent handed rounds hlen hsent hhanded hrounds hfuel hsafe
    obtain ⟨hgood, hmore⟩ := hsafe
    obtain ⟨front, rest, -, -, -, hstream, hend⟩ := round_stream sh hsent
    have hnext : handed ++ (streamFrom bufs sh 0
          (roundFill (bufs.map List.length) sent).slots).take
            (acceptedLen (bufs.map List.length) answers k sent) =
        bufs.flatten.take (sent + acceptedLen (bufs.map List.length) answers k sent) := by
      rw [hstream, List.take_append_of_le_length, List.take_take, Nat.min_eq_left hgood, hhanded,
        List.take_add]
      rw [List.length_take, List.length_drop]
      omega
    have hpos := streamLen_pos hlens sent
    rw [writevLoop_succ hlen, sentTotal]
    dsimp only
    rw [hnext]
    by_cases hgoes : GoesOn (bufs.map List.length) answers k sent
    · rw [if_pos hgoes, if_pos hgoes]
      have hsome : 0 < acceptedLen (bufs.map List.length) answers k sent := by
        have hanswer := Nat.pos_of_ne_zero hgoes.1
        rw [acceptedLen]
        omega
      exact ih (k + 1) _ _ _ _ (nextShare_len hlen _) (by omega) rfl (hrounds.append _ sent)
        (by omega) (hmore hgoes)
    · rw [if_neg hgoes, if_neg hgoes]
      refine ⟨_, rfl, by omega, rfl, ?_, hrounds.append _ sent⟩
      dsimp only
      by_cases hany : 0 < sent + acceptedLen (bufs.map List.length) answers k sent
      · rw [if_pos hany, if_pos hany]
      · rw [if_neg hany, if_neg hany]
        have hfail : answers k = 0 := by
          rw [acceptedLen] at hany
          omega
        rw [if_pos hfail]

/-- After a round that goes on there were bytes to send, and some have been sent. -/
theorem GoesOn.progress (hbufs : bufs ≠ []) (h : GoesOn (bufs.map List.length) answers k sent) :
    sent < bufs.flatten.length ∧ 0 < acceptedLen (bufs.map List.length) answers k sent := by
  have hlens : bufs.map List.length ≠ [] := by
    intro hnil
    exact hbufs (List.map_eq_nil_iff.mp hnil)
  have hpos := streamLen_pos hlens sent
  have hanswer := Nat.pos_of_ne_zero h.1
  have hsome : 0 < acceptedLen (bufs.map List.length) answers k sent := by
    rw [acceptedLen]
    omega
  refine ⟨?_, hsome⟩
  by_contra hall
  rw [List.length_flatten] at hall
  have hnone := share_all_sent (bufs.map List.length) 0 IOV_MAX sent (by omega)
  rw [← roundFill, ← h.2.1] at hnone
  omega

/-- **The loop ends**, whatever F-Stack accepts. -/
theorem writev_ends (answers : ℕ → ℕ) {sh : ShareIov} (hlen : ∀ j, sh.iov_len j = IOV_LEN_MAX) :
    ∃ r, ffHookWritev bufs answers sh (bufs.flatten.length + 1) = some r := by
  rw [ffHookWritev]
  by_cases hbufs : bufs = []
  · rw [if_pos hbufs]
    exact ⟨_, rfl⟩
  rw [if_neg hbufs]
  have hrun : ∀ fuel k sh sent handed rounds, (∀ j, sh.iov_len j = IOV_LEN_MAX) →
      bufs.flatten.length - sent < fuel →
      ∃ r, writevLoop bufs answers fuel k sh sent handed rounds = some r := by
    intro fuel
    induction fuel with
    | zero =>
      intro k sh sent handed rounds _ hfuel
      omega
    | succ fuel ih =>
      intro k sh sent handed rounds hlen hfuel
      rw [writevLoop_succ hlen]
      dsimp only
      by_cases hgoes : GoesOn (bufs.map List.length) answers k sent
      · obtain ⟨hmore, hsome⟩ := hgoes.progress hbufs
        rw [if_pos hgoes]
        exact ih (k + 1) _ _ _ _ (nextShare_len hlen _) (by omega)
      · rw [if_neg hgoes]
        exact ⟨_, rfl⟩
  exact hrun _ 0 sh 0 [] [] hlen (by omega)

theorem writev_ends_three :
    ∃ r, ffHookWritev [[1, 2], [3]] (fun _ => 1) ⟨fun _ => IOV_LEN_MAX, fun _ _ => 0⟩ 4 = some r :=
  writev_ends (fun _ => 1) fun _ => rfl

/-! ## Rounds that send something else -/

/-- There is a round that sends something else at the position `target`, and the rounds before it send what
follows. -/
def BadAt (lens : List ℕ) (answers : ℕ → ℕ) : ℕ → ℕ → ℕ → ℕ → Prop
  | 0, _, _, _ => False
  | fuel + 1, k, sent, target =>
    (goodLen lens sent < acceptedLen lens answers k sent ∧ target = sent + goodLen lens sent) ∨
      (acceptedLen lens answers k sent ≤ goodLen lens sent ∧ GoesOn lens answers k sent ∧
        BadAt lens answers fuel (k + 1) (sent + acceptedLen lens answers k sent) target)

theorem BadAt.le (h : BadAt lens answers fuel k sent target) : sent ≤ target := by
  induction fuel generalizing k sent with
  | zero => exact absurd h id
  | succ fuel ih =>
    rcases h with ⟨-, rfl⟩ | ⟨-, -, hrest⟩
    · exact Nat.le_add_right _ _
    · exact Nat.le_trans (Nat.le_add_right _ _) (ih hrest)

theorem exists_badAt (h : ¬PrefixSafe lens answers fuel k sent) :
    ∃ target, BadAt lens answers fuel k sent target := by
  induction fuel generalizing k sent with
  | zero => exact absurd trivial h
  | succ fuel ih =>
    by_cases hgood : acceptedLen lens answers k sent ≤ goodLen lens sent
    · have hmore : ¬(GoesOn lens answers k sent →
          PrefixSafe lens answers fuel (k + 1) (sent + acceptedLen lens answers k sent)) :=
        fun hsafe => h ⟨hgood, hsafe⟩
      obtain ⟨hgoes, hrest⟩ := Classical.not_imp.mp hmore
      obtain ⟨target, hbad⟩ := ih hrest
      exact ⟨target, Or.inr ⟨hgood, hgoes, hbad⟩⟩
    · exact ⟨_, Or.inl ⟨Nat.lt_of_not_le hgood, rfl⟩⟩

/-- What has been accepted is not taken back. -/
theorem writevLoop_handed (fuel : ℕ) :
    ∀ {k sh sent handed rounds r}, (∀ j, sh.iov_len j = IOV_LEN_MAX) →
      writevLoop bufs answers fuel k sh sent handed rounds = some r → handed <+: r.handed := by
  induction fuel with
  | zero =>
    intro k sh sent handed rounds r _ h
    cases h
  | succ fuel ih =>
    intro k sh sent handed rounds r hlen h
    rw [writevLoop_succ hlen] at h
    dsimp only at h
    by_cases hgoes : GoesOn (bufs.map List.length) answers k sent
    · rw [if_pos hgoes] at h
      exact (List.prefix_append handed _).trans (ih (nextShare_len hlen _) h)
    · rw [if_neg hgoes] at h
      obtain rfl := Option.some.inj h
      exact List.prefix_append handed _

/-- The bytes are 0, but for the one at `target`. -/
def MarkedAt (bufs : List (List UInt8)) (target : ℕ) : Prop :=
  ∀ p, p < bufs.flatten.length → bufs.flatten[p]? = some (if p = target then 1 else 0)

/-- What is copied from elsewhere than the mark is 0. -/
theorem MarkedAt.zero (h : MarkedAt bufs target) {q : ℕ} {b : UInt8} (hout : target < q ∨ q + n ≤ target)
    (hb : b ∈ (bufs.flatten.drop q).take n) : b = 0 := by
  obtain ⟨i, hi, rfl⟩ := List.getElem_of_mem hb
  have hlen := hi
  rw [List.length_take, List.length_drop] at hlen
  rw [List.getElem_take, List.getElem_drop]
  have hget := List.getElem?_eq_getElem (show q + i < bufs.flatten.length by omega)
  rw [h (q + i) (by omega), if_neg (by omega)] at hget
  exact (Option.some.inj hget).symm

/-- The bytes that contiguous slots are filled with. -/
theorem Contiguous.mem (h : Contiguous lens pos slots pos') (hmem : SlotFill.copied i off n ∈ slots) :
    pos ≤ flatStart lens i + off ∧ flatStart lens i + off + n ≤ pos' ∧
      off + n ≤ lens.getD i 0 := by
  induction slots generalizing pos with
  | nil => cases hmem
  | cons s slots ih =>
    cases s with
    | kept => exact absurd h id
    | copied i' off' n' =>
      obtain ⟨hstart, hrange, hpos, hrest⟩ := h
      rcases List.mem_cons.mp hmem with heq | hmem
      · obtain ⟨rfl, rfl, rfl⟩ := SlotFill.copied.inj heq
        have hend := hrest.counted.1
        omega
      · obtain ⟨hlo, hhi, hin⟩ := ih hrest hmem
        omega

/-- Slots that are filled with zeros only stay zero. -/
theorem fillSlots_zero (slots : List SlotFill)
    (hslots : ∀ i off n, SlotFill.copied i off n ∈ slots → ∀ b ∈ copiedBytes bufs i off n, b = 0) :
    ∀ sh j, (∀ s p, sh.mem s p = 0) → ∀ s p, (fillSlots bufs sh j slots).mem s p = 0 := by
  induction slots with
  | nil =>
    intro sh j hzero
    exact hzero
  | cons slot slots ih =>
    have hrest : ∀ i off n, SlotFill.copied i off n ∈ slots → ∀ b ∈ copiedBytes bufs i off n, b = 0 := by
      intro i off n hmem
      exact hslots i off n (List.mem_cons_of_mem _ hmem)
    intro sh j hzero
    cases slot with
    | kept => exact ih hrest sh (j + 1) hzero
    | copied i off n =>
      refine ih hrest _ (j + 1) fun s p => ?_
      dsimp only
      by_cases hs : s = j
      · subst hs
        rw [Function.update_self, writeAt, if_pos (Nat.zero_le p), hzero]
        cases hget : (copiedBytes bufs i off n)[p - 0]? with
        | none => rfl
        | some b => exact hslots i off n List.mem_cons_self b (List.mem_of_getElem? hget)
      · rw [Function.update_of_ne hs, hzero]

/-- The first byte of a slot that is not filled with the bytes at `target` is 0. -/
theorem slotData_zero {s : SlotFill} (hmark : MarkedAt bufs target) (hlen : ∀ j, sh.iov_len j = IOV_LEN_MAX)
    (hzero : ∀ s p, sh.mem s p = 0) (h : NotAt (bufs.map List.length) target (s :: slots)) :
    (slotData bufs sh j s)[0]? = some 0 := by
  cases s with
  | kept =>
    rw [slotData, hlen, readAt, List.getElem?_map,
      List.getElem?_eq_getElem (show 0 < (List.range IOV_LEN_MAX).length by simp [IOV_LEN_MAX]),
      Option.map_some, hzero]
  | copied i off n =>
    obtain ⟨hne, hrange, hpos⟩ := h
    obtain ⟨hbytes, hn⟩ := copiedBytes_eq bufs hrange
    rw [slotData]
    have hget := List.getElem?_eq_getElem (show 0 < (copiedBytes bufs i off n).length by omega)
    rw [hget]
    have hmem : (copiedBytes bufs i off n)[0] ∈ (bufs.flatten.drop
        (flatStart (bufs.map List.length) i + off)).take 1 := by
      have hfirst : ((bufs.flatten.drop (flatStart (bufs.map List.length) i + off)).take 1)[0]? =
          (copiedBytes bufs i off n)[0]? := by
        rw [hbytes, List.getElem?_take_of_lt Nat.zero_lt_one, List.getElem?_take_of_lt hpos]
      rw [hget] at hfirst
      exact List.mem_of_getElem? hfirst
    rw [hmark.zero (by omega) hmem]

/-- **A round that sends more than what follows spoils the call**, for buffers with a mark at the
byte that should have followed. -/
theorem run_bad (hmark : MarkedAt bufs target) (answers : ℕ → ℕ) (fuel : ℕ) :
    ∀ k sh sent handed rounds r, BadAt (bufs.map List.length) answers fuel k sent target →
      (∀ j, sh.iov_len j = IOV_LEN_MAX) → (∀ s p, sh.mem s p = 0) → sent ≤ bufs.flatten.length →
      handed = bufs.flatten.take sent →
      writevLoop bufs answers fuel k sh sent handed rounds = some r → ¬r.handed <+: bufs.flatten := by
  induction fuel with
  | zero =>
    intro k sh sent handed rounds r hbad
    exact absurd hbad id
  | succ fuel ih =>
    intro k sh sent handed rounds r hbad hlen hzero hsent hhanded hrun
    obtain ⟨front, rest, hslots, hfront, hrest, hstream, hend⟩ := round_stream sh hsent
    obtain ⟨-, hok⟩ := roundFill_ok (bufs.map List.length) sent
    have hsum := hfront.counted
    rw [Nat.add_left_cancel_iff] at hsum
    have hgoodLen : ((bufs.flatten.drop sent).take (goodLen (bufs.map List.length) sent)).length =
        goodLen (bufs.map List.length) sent := by
      rw [List.length_take, List.length_drop]
      omega
    rw [writevLoop_succ hlen] at hrun
    dsimp only at hrun
    rcases hbad with ⟨hmore, rfl⟩ | ⟨hgood, hgoes, hbad⟩
    · -- the byte after those that follow is the first of the slot after `front`
      cases rest with
      | nil =>
        have htotal : acceptedLen (bufs.map List.length) answers k sent ≤
            goodLen (bufs.map List.length) sent := by
          rw [acceptedLen, streamLen, hslots, List.append_nil, hsum.2, hsum.1]
          exact Nat.min_le_right _ _
        exact absurd hmore (Nat.not_lt_of_le htotal)
      | cons s rest =>
        have hbyte : (handed ++ (streamFrom bufs sh 0
            (roundFill (bufs.map List.length) sent).slots).take
              (acceptedLen (bufs.map List.length) answers k sent))[
                sent + goodLen (bufs.map List.length) sent]? = some 0 := by
          have hhandedLen : handed.length = sent := by
            rw [hhanded, List.length_take]
            omega
          rw [List.getElem?_append_right (by omega), hhandedLen, Nat.add_sub_cancel_left,
            List.getElem?_take_of_lt hmore, hstream, List.getElem?_append_right (by omega), hgoodLen,
            Nat.sub_self, streamFrom]
          have hfirst := slotData_zero (j := front.length) hmark hlen hzero hrest
          rw [List.getElem?_append_left]
          · exact hfirst
          · exact (List.getElem?_eq_some_iff.mp hfirst).1
        intro hprefix
        have hkept : (handed ++ (streamFrom bufs sh 0
            (roundFill (bufs.map List.length) sent).slots).take
              (acceptedLen (bufs.map List.length) answers k sent)) <+: r.handed := by
          by_cases hgoes : GoesOn (bufs.map List.length) answers k sent
          · rw [if_pos hgoes] at hrun
            exact writevLoop_handed fuel (nextShare_len hlen _) hrun
          · rw [if_neg hgoes] at hrun
            obtain rfl := Option.some.inj hrun
            exact List.prefix_rfl
        have hflat : bufs.flatten[sent + goodLen (bufs.map List.length) sent]? = some 0 := by
          obtain ⟨more, heq⟩ := hkept.trans hprefix
          rw [← heq, List.getElem?_append_left (List.getElem?_eq_some_iff.mp hbyte).1, hbyte]
        rw [hmark _ (List.getElem?_eq_some_iff.mp hflat).1, if_pos rfl] at hflat
        exact absurd hflat (by decide)
    · rw [if_pos hgoes] at hrun
      have haccepted : acceptedLen (bufs.map List.length) answers k sent =
          goodLen (bufs.map List.length) sent + (rest.map SlotFill.counted).sum := by
        rw [hgoes.2.1, ShareFill.total, hslots, List.map_append, List.sum_append, hsum.1]
      have hle := hbad.le
      have hcopied : ∀ i off n, SlotFill.copied i off n ∈ (roundFill (bufs.map List.length) sent).slots →
          ∀ b ∈ copiedBytes bufs i off n, b = 0 := by
        intro i off n hmem b hb
        rw [hslots] at hmem
        rcases List.mem_append.mp hmem with hin | hin
        · obtain ⟨hlo, hhi, hrange⟩ := hfront.mem hin
          rw [(copiedBytes_eq bufs hrange).1] at hb
          exact hmark.zero (Or.inr (by omega)) hb
        · -- nothing else has been counted, so nothing else has been copied
          have hslot := (hok _ (by rw [hslots]; exact hmem)).some
          have hcounted : n ≤ (rest.map SlotFill.counted).sum :=
            List.le_sum_of_mem (List.mem_map.mpr ⟨_, hin, rfl⟩)
          rw [SlotFill.iov_len] at hslot
          omega
      refine ih (k + 1) _ _ _ _ r hbad (nextShare_len hlen _) ?_ (by omega) ?_ hrun
      · exact fillSlots_zero _ hcopied sh 0 hzero
      · rw [hstream, List.take_append_of_le_length (by omega), List.take_take,
          Nat.min_eq_left hgood, hhanded, List.take_add]

/-! ## The call -/

/-- What is asked of a call with these buffers, and these bytes in the slots. -/
def WritevRight (bufs : List (List UInt8)) (mem : ℕ → ℕ → UInt8) (answers : ℕ → ℕ) : Prop :=
  ∃ r, ffHookWritev bufs answers ⟨fun _ => IOV_LEN_MAX, mem⟩ (bufs.flatten.length + 1) = some r ∧
    r.handed <+: bufs.flatten ∧ r.ret = (if r.handed = [] then -1 else (r.handed.length : ℤ)) ∧
    RoundsOk r.rounds

/-- When a call does that: in each round F-Stack accepts no more than what follows the bytes sent before, and
fewer than `2 ^ 31` bytes in all. -/
def WritevSafe (lens : List ℕ) (answers : ℕ → ℕ) : Prop :=
  PrefixSafe lens answers (lens.sum + 1) 0 0 ∧ sentTotal lens answers (lens.sum + 1) 0 0 < 2 ^ 31

/-- Buffers with a mark at `target`, the first byte of the first one being at `pos`. -/
def markedBufs (target : ℕ) : ℕ → List ℕ → List (List UInt8)
  | _, [] => []
  | pos, iov_len :: lens =>
    ((List.range' pos iov_len).map fun p => if p = target then 1 else 0) ::
      markedBufs target (pos + iov_len) lens

theorem markedBufs_spec (target : ℕ) (lens : List ℕ) :
    ∀ pos, (markedBufs target pos lens).map List.length = lens ∧
      (markedBufs target pos lens).flatten =
        (List.range' pos lens.sum).map fun p => if p = target then 1 else 0 := by
  induction lens with
  | nil =>
    intro pos
    exact ⟨rfl, rfl⟩
  | cons iov_len lens ih =>
    intro pos
    obtain ⟨hlens, hflat⟩ := ih (pos + iov_len)
    have happend := @List.range'_append_1 pos iov_len lens.sum
    rw [markedBufs, List.map_cons, hlens, List.flatten_cons, hflat, List.sum_cons, ← happend,
      List.map_append]
    exact ⟨by simp, rfl⟩

theorem markedBufs_marked (target : ℕ) (lens : List ℕ) : MarkedAt (markedBufs target 0 lens) target := by
  intro p hp
  have hflat := (markedBufs_spec target lens 0).2
  rw [hflat] at hp ⊢
  rw [List.length_map, List.length_range'] at hp
  rw [List.getElem?_map, List.getElem?_range' hp]
  simp

/-- A number that is returned as an `int` is what it was if it is less than `2 ^ 31`. -/
theorem bmod_eq_iff (n : ℕ) : ((n : ℕ) : ℤ).bmod (2 ^ 32) = n ↔ n < 2 ^ 31 := by
  rw [Int.bmod_def]
  omega

/-- Where every round sends what follows, the call does right if it can return the number of the
bytes. -/
theorem writev_right_iff_of_prefixSafe (hbufs : bufs ≠ []) (mem : ℕ → ℕ → UInt8)
    (hsafe : PrefixSafe (bufs.map List.length) answers ((bufs.map List.length).sum + 1) 0 0) :
    WritevRight bufs mem answers ↔
      sentTotal (bufs.map List.length) answers ((bufs.map List.length).sum + 1) 0 0 < 2 ^ 31 := by
  rw [← List.length_flatten] at hsafe ⊢
  obtain ⟨r, hrun, hle, hhanded, hret, hrounds⟩ :=
    run_safe hbufs answers (bufs.flatten.length + 1) 0 ⟨fun _ => IOV_LEN_MAX, mem⟩ 0 [] []
      (fun _ => rfl) (Nat.zero_le _) rfl (by simp [RoundsOk]) (by omega) hsafe
  generalize sentTotal (bufs.map List.length) answers (bufs.flatten.length + 1) 0 0 = total at *
  have hlen : r.handed.length = total := by
    rw [hhanded, List.length_take]
    omega
  have hcall : ffHookWritev bufs answers ⟨fun _ => IOV_LEN_MAX, mem⟩ (bufs.flatten.length + 1) =
      some r := by
    rw [ffHookWritev, if_neg hbufs, hrun]
  have hreturn : r.ret = (if r.handed = [] then -1 else (r.handed.length : ℤ)) ↔ total < 2 ^ 31 := by
    rw [hret]
    by_cases hany : 0 < total
    · have hsome : r.handed ≠ [] := by
        intro hnil
        rw [hnil, List.length_nil] at hlen
        omega
      rw [if_pos hany, if_neg hsome, hlen, bmod_eq_iff]
    · have hnone : r.handed = [] := List.length_eq_zero_iff.mp (by omega)
      rw [if_neg hany, if_pos hnone]
      exact iff_of_true rfl (by omega)
  constructor
  · rintro ⟨r', hr', -, hret', -⟩
    rw [hcall] at hr'
    obtain rfl := Option.some.inj hr'
    exact hreturn.mp hret'
  · intro hsmall
    refine ⟨r, hcall, ?_, hreturn.mpr hsmall, hrounds⟩
    rw [hhanded]
    exact List.take_prefix _ _

/-- A call with no buffers does right. -/
theorem writev_right_nil (mem : ℕ → ℕ → UInt8) (answers : ℕ → ℕ) : WritevRight [] mem answers :=
  ⟨⟨-1, [], []⟩, rfl, List.prefix_rfl, rfl, by simp [RoundsOk]⟩

/-- **`writev` sends a prefix of the buffers, whatever is in them and in the slots, exactly when** in each round
F-Stack accepts no more than what follows the bytes sent before, and less than `2 ^ 31` bytes in all. -/
theorem writev_prefix_iff (lens : List ℕ) (answers : ℕ → ℕ) :
    (∀ (bufs : List (List UInt8)) (mem : ℕ → ℕ → UInt8), bufs.map List.length = lens →
      WritevRight bufs mem answers) ↔ WritevSafe lens answers := by
  by_cases hlens : lens = []
  · subst hlens
    refine iff_of_true ?_ ⟨⟨Nat.min_le_right _ _, ?_⟩, ?_⟩
    · intro bufs mem hbufs
      rw [List.map_eq_nil_iff.mp hbufs]
      exact writev_right_nil mem answers
    · intro hgoes
      exact absurd hgoes.2.2 (Nat.lt_irrefl 0)
    · have hstop : ¬GoesOn [] answers 0 0 := fun hgoes => absurd hgoes.2.2 (Nat.lt_irrefl 0)
      have hnone : acceptedLen [] answers 0 0 = 0 := Nat.min_zero _
      rw [List.sum_nil, sentTotal, if_neg hstop, hnone]
      omega
  have hne : ∀ bufs : List (List UInt8), bufs.map List.length = lens → bufs ≠ [] := by
    rintro bufs hbufs rfl
    exact hlens hbufs.symm
  constructor
  · intro hright
    have hsafe : PrefixSafe lens answers (lens.sum + 1) 0 0 := by
      by_contra hunsafe
      obtain ⟨target, hbad⟩ := exists_badAt hunsafe
      obtain ⟨bufs, rfl, hmark⟩ : ∃ bufs : List (List UInt8),
          bufs.map List.length = lens ∧ MarkedAt bufs target :=
        ⟨_, (markedBufs_spec target lens 0).1, markedBufs_marked target lens⟩
      obtain ⟨r, hcall, hprefix, -, -⟩ := hright bufs (fun _ _ => 0) rfl
      rw [ffHookWritev, if_neg (hne bufs rfl), List.length_flatten] at hcall
      exact run_bad hmark answers _ 0 _ 0 [] [] r hbad (fun _ => rfl) (fun _ _ => rfl) (Nat.zero_le _)
        rfl hcall hprefix
    obtain ⟨hbufs, -⟩ := markedBufs_spec 0 lens 0
    have hone := hright (markedBufs 0 0 lens) (fun _ _ => 0) hbufs
    rw [← hbufs] at hsafe
    rw [writev_right_iff_of_prefixSafe (hne _ hbufs) _ hsafe, hbufs] at hone
    rw [hbufs] at hsafe
    exact ⟨hsafe, hone⟩
  · rintro ⟨hsafe, hsmall⟩ bufs mem rfl
    exact (writev_right_iff_of_prefixSafe (hne bufs rfl) mem hsafe).mpr hsmall

/-- An empty buffer before another one has F-Stack send a byte that the slot had before. -/
theorem not_writev_prefix :
    ¬∀ (bufs : List (List UInt8)) (mem : ℕ → ℕ → UInt8) (answers : ℕ → ℕ),
      WritevRight bufs mem answers := by
  intro h
  obtain ⟨r, hcall, hprefix, -, -⟩ := h [[], [1]] (fun _ _ => 0) fun _ => 1
  have hmark : MarkedAt [[], [1]] 0 := by
    intro p hp
    obtain rfl : p = 0 := Nat.lt_one_iff.mp hp
    rfl
  have hgood : goodLen [0, 1] 0 = 0 := rfl
  have hbad : BadAt [0, 1] (fun _ => 1) 2 0 0 0 := by
    refine Or.inl ⟨?_, hgood.symm⟩
    have hpos := streamLen_pos (show [0, 1] ≠ [] by simp) 0
    rw [hgood, acceptedLen]
    omega
  rw [ffHookWritev, if_neg (by simp)] at hcall
  exact run_bad hmark (fun _ => 1) 2 0 ⟨fun _ => IOV_LEN_MAX, fun _ _ => 0⟩ 0 [] [] r hbad
    (fun _ => rfl) (fun _ _ => rfl) (Nat.zero_le _) rfl hcall hprefix

end FStack.Analysis
