import FStack.Model.Transmit
import Mathlib.Data.List.Induction
import Mathlib.Data.List.ReduceOption
import Mathlib.Data.Nat.Find

/-!
# When the ring of transmitted mbufs frees

Consuming a descriptor takes what its slot held and leaves something else there, so the content of the
ring, from the head on, is a queue of `TX_QUEUE_SIZE` entries of which one comes out at the front for
each that goes in behind (`ringContent_consumeSlot`).  What comes out during a run is therefore what went in,
after the `TX_QUEUE_SIZE` empty slots of the zeroed ring (`ringContent_after`), and each mbuf comes out
with the descriptor that follows its own by `TX_QUEUE_SIZE` (`reduceOption_window`).
-/

set_option autoImplicit false

namespace FStack.Analysis

open FStack.Model

variable {q : RawTxring} {j i : ℕ} {calls : List (ℕ × ℕ)}

/-- The slots of a ring from its head on. -/
def ringContent (q : RawTxring) : List (Option ℕ) :=
  (List.range TX_QUEUE_SIZE).map fun i => q.m_table ((q.head.toNat + i) % TX_QUEUE_SIZE)

/-- The ring after one descriptor, in whose slot `o` is left. -/
def consumeSlot (q : RawTxring) (o : Option ℕ) : RawTxring :=
  ⟨Function.update q.m_table q.head.toNat o, rawHeadInc q.head⟩

/-! ## One descriptor -/

/-- The next slot, as a number. -/
theorem rawHeadInc_toNat {h : UInt16} (hlt : h.toNat < TX_QUEUE_SIZE) :
    (rawHeadInc h).toNat = (h.toNat + 1) % TX_QUEUE_SIZE := by
  have hsize : TX_QUEUE_SIZE = 512 := rfl
  have hsucc : (h + 1).toNat = h.toNat + 1 := by
    rw [UInt16.toNat_add, UInt16.toNat_one, Nat.mod_eq_of_lt]
    omega
  unfold rawHeadInc
  by_cases hend : TX_QUEUE_SIZE ≤ (h + 1).toNat
  · rw [if_pos hend, UInt16.toNat_zero, show h.toNat + 1 = TX_QUEUE_SIZE by omega, Nat.mod_self]
  · rw [if_neg hend, hsucc, Nat.mod_eq_of_lt (by omega)]

theorem rawHeadInc_lt {h : UInt16} (hlt : h.toNat < TX_QUEUE_SIZE) :
    (rawHeadInc h).toNat < TX_QUEUE_SIZE := by
  rw [rawHeadInc_toNat hlt]
  exact Nat.mod_lt _ (by decide)

@[simp] theorem ringContent_length (q : RawTxring) : (ringContent q).length = TX_QUEUE_SIZE := by
  simp [ringContent]

@[simp] theorem ringContent_getElem (q : RawTxring) (i : ℕ) (h : i < (ringContent q).length) :
    (ringContent q)[i] = q.m_table ((q.head.toNat + i) % TX_QUEUE_SIZE) := by
  simp [ringContent]

/-- **One descriptor is one step of a queue**: its slot is emptied at the front, and refilled
behind. -/
theorem ringContent_consumeSlot (hlt : q.head.toNat < TX_QUEUE_SIZE) (o : Option ℕ) :
    ringContent q ++ [o] = q.m_table q.head.toNat :: ringContent (consumeSlot q o) := by
  apply List.ext_getElem
  · simp
  · intro i hi hi'
    have hle : i < TX_QUEUE_SIZE + 1 := by simpa using hi
    cases i with
    | zero =>
      rw [List.getElem_append_left (by simpa using Nat.zero_lt_of_lt hlt), ringContent_getElem]
      simp [Nat.mod_eq_of_lt hlt]
    | succ i =>
      have hnext : ((rawHeadInc q.head).toNat + i) % TX_QUEUE_SIZE =
          (q.head.toNat + (i + 1)) % TX_QUEUE_SIZE := by
        rw [rawHeadInc_toNat hlt, Nat.mod_add_mod, Nat.add_assoc, Nat.add_comm 1 i]
      rw [List.getElem_cons_succ, ringContent_getElem]
      show _ = Function.update q.m_table q.head.toNat o
        (((rawHeadInc q.head).toNat + i) % TX_QUEUE_SIZE)
      rw [hnext]
      by_cases hlast : i + 1 = TX_QUEUE_SIZE
      · have hself : (q.head.toNat + (i + 1)) % TX_QUEUE_SIZE = q.head.toNat := by
          rw [hlast, Nat.add_mod_right, Nat.mod_eq_of_lt hlt]
        rw [hself, Function.update_self, List.getElem_append_right (by simp [hlast])]
        simp
      · have hi : i + 1 < TX_QUEUE_SIZE := by omega
        have hother : (q.head.toNat + (i + 1)) % TX_QUEUE_SIZE ≠ q.head.toNat := by
          rw [show TX_QUEUE_SIZE = 512 from rfl] at *
          omega
        rw [Function.update_of_ne hother, List.getElem_append_left (by simpa using hi),
          ringContent_getElem]

/-! ## One call -/

/-- A round of the loop consumes a descriptor for nothing. -/
theorem rawTxringSkip_succ (n : ℕ) (q : RawTxring) (freed : List ℕ) :
    rawTxringSkip (n + 1) q freed =
      rawTxringSkip n (consumeSlot q none) (freed ++ (q.m_table q.head.toNat).toList) := by
  rw [rawTxringSkip]
  cases hslot : q.m_table q.head.toNat with
  | none =>
    have hsame : consumeSlot q none = { q with head := rawHeadInc q.head } := by
      rw [consumeSlot, Function.update_eq_self_iff.mpr hslot.symm]
    simp [hsame]
  | some m => simp [consumeSlot]

/-- After the loop a call consumes the descriptor of its mbuf. -/
theorem rawTxringEnqueue_eq (q : RawTxring) (p seg_num : ℕ) :
    rawTxringEnqueue q p seg_num =
      (consumeSlot (rawTxringSkip (seg_num - 1) q []).1 (some p),
        ffMbufFreeOpt (rawTxringSkip (seg_num - 1) q []).2
          ((rawTxringSkip (seg_num - 1) q []).1.m_table
            (rawTxringSkip (seg_num - 1) q []).1.head.toNat)) :=
  rfl

/-- The loop of a call is a queue step for each of its descriptors. -/
theorem rawTxringSkip_spec (n : ℕ) (hlt : q.head.toNat < TX_QUEUE_SIZE) (freed : List ℕ) :
    ∃ out : List (Option ℕ), out.length = n ∧
      ringContent q ++ List.replicate n none = out ++ ringContent (rawTxringSkip n q freed).1 ∧
      (rawTxringSkip n q freed).2 = freed ++ out.reduceOption ∧
      (rawTxringSkip n q freed).1.head.toNat = (q.head.toNat + n) % TX_QUEUE_SIZE := by
  induction n generalizing q freed with
  | zero => exact ⟨[], rfl, by simp [rawTxringSkip], by simp [rawTxringSkip],
      by simp [rawTxringSkip, Nat.mod_eq_of_lt hlt]⟩
  | succ n ih =>
    have hhead : (consumeSlot q none).head.toNat = (q.head.toNat + 1) % TX_QUEUE_SIZE :=
      rawHeadInc_toNat hlt
    obtain ⟨out, hlen, hqueue, hfreed, hend⟩ :=
      ih (q := consumeSlot q none) (rawHeadInc_lt hlt) (freed ++ (q.m_table q.head.toNat).toList)
    refine ⟨q.m_table q.head.toNat :: out, by simp [hlen], ?_, ?_, ?_⟩
    · rw [List.replicate_succ, ← List.singleton_append, ← List.append_assoc,
        ringContent_consumeSlot hlt, List.cons_append, hqueue, rawTxringSkip_succ, List.cons_append]
    · rw [rawTxringSkip_succ, hfreed]
      cases q.m_table q.head.toNat with
      | none => simp
      | some m => simp
    · rw [rawTxringSkip_succ, hend, hhead, Nat.mod_add_mod, Nat.add_assoc, Nat.add_comm 1 n]

/-- What a call puts behind: nothing in the slots of its first descriptors, and its mbuf in the slot
of the last. -/
def callEntries (p seg_num : ℕ) : List (Option ℕ) :=
  List.replicate (seg_num - 1) none ++ [some p]

/-- **A call is a queue step for each of its descriptors**, and frees what comes out. -/
theorem rawTxringEnqueue_spec (hlt : q.head.toNat < TX_QUEUE_SIZE) (p : ℕ) {seg_num : ℕ} (hseg : 1 ≤ seg_num)
    :
    ∃ out : List (Option ℕ), out.length = seg_num ∧
      ringContent q ++ callEntries p seg_num = out ++ ringContent (rawTxringEnqueue q p seg_num).1 ∧
      (rawTxringEnqueue q p seg_num).2 = out.reduceOption ∧
      (rawTxringEnqueue q p seg_num).1.head.toNat = (q.head.toNat + seg_num) % TX_QUEUE_SIZE := by
  obtain ⟨out, hlen, hqueue, hfreed, hend⟩ := rawTxringSkip_spec (seg_num - 1) hlt []
  generalize hskip : rawTxringSkip (seg_num - 1) q [] = r at hqueue hfreed hend
  have hlt' : r.1.head.toNat < TX_QUEUE_SIZE := by
    rw [hend]
    exact Nat.mod_lt _ (by decide)
  have hcall : rawTxringEnqueue q p seg_num =
      (consumeSlot r.1 (some p), ffMbufFreeOpt r.2 (r.1.m_table r.1.head.toNat)) := by
    rw [rawTxringEnqueue_eq, hskip]
  refine ⟨out ++ [r.1.m_table r.1.head.toNat], by simp [hlen]; omega, ?_, ?_, ?_⟩
  · rw [callEntries, ← List.append_assoc, hqueue, List.append_assoc, ringContent_consumeSlot hlt', hcall,
      List.append_assoc, List.singleton_append]
  · rw [hcall, hfreed]
    cases r.1.m_table r.1.head.toNat with
    | none => simp [ffMbufFreeOpt, List.reduceOption_append]
    | some m => simp [ffMbufFreeOpt, List.reduceOption_append]
  · rw [hcall]
    show (rawHeadInc r.1.head).toNat = _
    rw [rawHeadInc_toNat hlt', hend, Nat.mod_add_mod, Nat.add_assoc, Nat.sub_add_cancel hseg]

/-! ## The rings of the transmission queues -/

/-- A ring of the transmission queues, as the source has it. -/
def rawOfTxring (q : MbufTxring) : RawTxring :=
  ⟨fun k => if h : k < TX_QUEUE_SIZE then q.m_table ⟨k, h⟩ else none, UInt16.ofNat q.head.val⟩

theorem rawOfTxring_head (q : MbufTxring) : (rawOfTxring q).head.toNat = q.head.val := by
  have hsize : TX_QUEUE_SIZE = 512 := rfl
  have hlt := q.head.isLt
  rw [rawOfTxring, UInt16.toNat_ofNat', Nat.mod_eq_of_lt (by omega)]

theorem rawOfTxring_slot (q : MbufTxring) :
    (rawOfTxring q).m_table (rawOfTxring q).head.toNat = q.m_table q.head := by
  rw [rawOfTxring_head]
  simp [rawOfTxring]

/-- Consuming a descriptor does the same to both. -/
theorem consumeSlot_rawOfTxring (q : MbufTxring) (o : Option ℕ) :
    consumeSlot (rawOfTxring q) o =
      rawOfTxring ⟨Function.update q.m_table q.head o, headInc q.head⟩ := by
  have hlt : (rawOfTxring q).head.toNat < TX_QUEUE_SIZE := by
    rw [rawOfTxring_head]
    exact q.head.isLt
  have hhead : rawHeadInc (rawOfTxring q).head =
      (rawOfTxring ⟨Function.update q.m_table q.head o, headInc q.head⟩).head := by
    apply UInt16.toNat_inj.mp
    rw [rawHeadInc_toNat hlt, rawOfTxring_head, rawOfTxring_head]
    by_cases hend : q.head.val + 1 < TX_QUEUE_SIZE
    · simp [headInc, hend, Nat.mod_eq_of_lt]
    · have hlast : q.head.val + 1 = TX_QUEUE_SIZE := by omega
      simp [headInc, hlast]
  have htable : Function.update (rawOfTxring q).m_table (rawOfTxring q).head.toNat o =
      (rawOfTxring ⟨Function.update q.m_table q.head o, headInc q.head⟩).m_table := by
    funext k
    rw [rawOfTxring_head]
    by_cases hk : k < TX_QUEUE_SIZE
    · by_cases hself : k = q.head.val
      · subst hself
        simp [rawOfTxring]
      · have hne : (⟨k, hk⟩ : Fin TX_QUEUE_SIZE) ≠ q.head := fun h => hself (congrArg Fin.val h)
        simp [rawOfTxring, hk, Function.update_of_ne hself, Function.update_of_ne hne]
    · have hself : k ≠ q.head.val := fun h => hk (h ▸ q.head.isLt)
      simp [rawOfTxring, hk, Function.update_of_ne hself]
  rw [consumeSlot, hhead, htable]

theorem rawTxringSkip_rawOfTxring (n : ℕ) (q : MbufTxring) (freed : List ℕ) :
    rawTxringSkip n (rawOfTxring q) freed =
      (rawOfTxring (ffTxringSkip n q freed).1, (ffTxringSkip n q freed).2) := by
  induction n generalizing q freed with
  | zero => rfl
  | succ n ih =>
    rw [rawTxringSkip_succ, consumeSlot_rawOfTxring, rawOfTxring_slot, ih, ffTxringSkip]
    cases q.m_table q.head with
    | none => simp [ffMbufFreeOpt]
    | some m => rfl

/-- A call on a ring of the transmission queues is the call on the ring of the source. -/
theorem rawTxringEnqueue_rawOfTxring (q : MbufTxring) (p seg_num : ℕ) :
    rawTxringEnqueue (rawOfTxring q) p seg_num =
      (rawOfTxring (ffTxringEnqueue q p seg_num []).1, (ffTxringEnqueue q p seg_num []).2) := by
  rw [rawTxringEnqueue_eq, rawTxringSkip_rawOfTxring, consumeSlot_rawOfTxring, rawOfTxring_slot]
  rfl

/-! ## A run -/

/-- What a run puts behind. -/
def runEntries (calls : List (ℕ × ℕ)) : List (Option ℕ) := calls.flatMap fun c => callEntries c.1 c.2

theorem runEntries_append (calls more : List (ℕ × ℕ)) :
    runEntries (calls ++ more) = runEntries calls ++ runEntries more :=
  List.flatMap_append

@[simp] theorem runEntries_singleton (c : ℕ × ℕ) : runEntries [c] = callEntries c.1 c.2 :=
  List.append_nil _

@[simp] theorem callEntries_length {p seg_num : ℕ} (hseg : 1 ≤ seg_num) :
    (callEntries p seg_num).length = seg_num := by
  simp [callEntries]
  omega

@[simp] theorem descriptorsBefore_zero (calls : List (ℕ × ℕ)) : descriptorsBefore calls 0 = 0 := by
  simp [descriptorsBefore]

theorem descriptorsBefore_succ (calls : List (ℕ × ℕ)) (hj : j < calls.length) :
    descriptorsBefore calls (j + 1) = descriptorsBefore calls j + calls[j].2 := by
  rw [descriptorsBefore, descriptorsBefore, List.take_add_one, List.getElem?_eq_getElem hj,
    List.map_append, List.sum_append]
  simp

theorem descriptorsBefore_append (calls more : List (ℕ × ℕ)) (hj : j ≤ calls.length) :
    descriptorsBefore (calls ++ more) j = descriptorsBefore calls j := by
  rw [descriptorsBefore, descriptorsBefore, List.take_append_of_le_length hj]

theorem descriptorsBefore_take (calls : List (ℕ × ℕ)) (hij : i ≤ j) :
    descriptorsBefore (calls.take j) i = descriptorsBefore calls i := by
  rw [descriptorsBefore, descriptorsBefore, List.take_take, Nat.min_eq_left hij]

/-- The entries of a run are its descriptors. -/
theorem runEntries_length (hseg : ∀ c ∈ calls, 1 ≤ c.2) :
    (runEntries calls).length = descriptorsBefore calls calls.length := by
  rw [runEntries, List.length_flatMap, descriptorsBefore, List.take_length]
  congr 1
  exact List.map_congr_left fun c hc => callEntries_length (hseg c hc)

/-- The slots of the zeroed ring, and all that a run puts behind. -/
def paddedEntries (calls : List (ℕ × ℕ)) : List (Option ℕ) :=
  List.replicate TX_QUEUE_SIZE none ++ runEntries calls

theorem paddedEntries_append (calls more : List (ℕ × ℕ)) :
    paddedEntries (calls ++ more) = paddedEntries calls ++ runEntries more := by
  rw [paddedEntries, runEntries_append, ← List.append_assoc, ← paddedEntries]

theorem rawTxringAfter_append (calls : List (ℕ × ℕ)) (c : ℕ × ℕ) :
    rawTxringAfter (calls ++ [c]) = (rawTxringEnqueue (rawTxringAfter calls) c.1 c.2).1 := by
  rw [rawTxringAfter, List.foldl_append, ← rawTxringAfter]
  rfl

/-- **The ring is a queue.**  What has come out during a run, followed by what the ring holds,
is what has gone in. -/
theorem ringContent_after (hseg : ∀ c ∈ calls, 1 ≤ c.2) :
    (rawTxringAfter calls).head.toNat =
        descriptorsBefore calls calls.length % TX_QUEUE_SIZE ∧
      ∃ out : List (Option ℕ), out.length = descriptorsBefore calls calls.length ∧
        paddedEntries calls = out ++ ringContent (rawTxringAfter calls) := by
  induction calls using List.reverseRecOn with
  | nil => exact ⟨by decide, [], rfl, by decide +kernel⟩
  | append_singleton calls c ih =>
    have hold : ∀ c ∈ calls, 1 ≤ c.2 := fun x hx => hseg x (List.mem_append_left _ hx)
    have hc : 1 ≤ c.2 := hseg c (List.mem_append_right _ (List.mem_singleton_self c))
    obtain ⟨hhead, out, hlen, hqueue⟩ := ih hold
    have htotal : descriptorsBefore (calls ++ [c]) (calls ++ [c]).length =
        descriptorsBefore calls calls.length + c.2 := by
      rw [List.length_append, List.length_singleton, descriptorsBefore_succ _ (by simp),
        descriptorsBefore_append _ _ (Nat.le_refl _)]
      simp
    have hlt : (rawTxringAfter calls).head.toNat < TX_QUEUE_SIZE := by
      rw [hhead]
      exact Nat.mod_lt _ (by decide)
    obtain ⟨new, hnew, hput, _, hend⟩ := rawTxringEnqueue_spec hlt c.1 hc
    rw [htotal, rawTxringAfter_append]
    refine ⟨by rw [hend, hhead, Nat.mod_add_mod], out ++ new, by simp [hlen, hnew], ?_⟩
    rw [paddedEntries_append, hqueue, runEntries_singleton, List.append_assoc, hput,
      List.append_assoc]

/-! ## When an mbuf comes out -/

/-- The calls whose mbufs are due at the `j`-th call: it consumes the descriptor that follows their
last one by `TX_QUEUE_SIZE`. -/
def dueAt (calls : List (ℕ × ℕ)) (j : ℕ) : List ℕ :=
  (List.range calls.length).filter fun i =>
    descriptorsBefore calls j ≤ lastDescriptor calls i + TX_QUEUE_SIZE ∧
      lastDescriptor calls i + TX_QUEUE_SIZE < descriptorsBefore calls (j + 1)

theorem lastDescriptor_append (calls more : List (ℕ × ℕ)) (hi : i < calls.length) :
    lastDescriptor (calls ++ more) i = lastDescriptor calls i := by
  rw [lastDescriptor, lastDescriptor, descriptorsBefore_append _ _ hi]

theorem callMbuf_append (calls more : List (ℕ × ℕ)) (hi : i < calls.length) :
    callMbuf (calls ++ more) i = callMbuf calls i := by
  rw [callMbuf, callMbuf, List.getD_eq_getElem?_getD, List.getD_eq_getElem?_getD,
    List.getElem?_append_left hi]

/-- Of the entries of one call, the last is its mbuf. -/
theorem reduceOption_callEntries (p seg_num a b : ℕ) :
    (((callEntries p seg_num).take b).drop a).reduceOption =
      if a ≤ seg_num - 1 ∧ seg_num - 1 < b then [p] else [] := by
  rw [callEntries, List.take_append, List.drop_append, List.reduceOption_append,
    List.take_replicate, List.drop_replicate, List.reduceOption_replicate_none, List.nil_append,
    List.length_replicate, List.length_replicate]
  by_cases hb : seg_num - 1 < b
  · rw [List.take_of_length_le (by simp; omega), Nat.min_eq_right (by omega)]
    by_cases ha : a ≤ seg_num - 1
    · rw [if_pos ⟨ha, hb⟩, Nat.sub_eq_zero_of_le ha]
      simp
    · rw [if_neg (fun h => ha h.1), List.drop_of_length_le (by simp; omega)]
      rfl
  · rw [if_neg (fun h => hb h.2), Nat.sub_eq_zero_of_le (n := b) (Nat.le_of_not_lt hb)]
    simp

/-- The mbufs among the entries from `a` to `b`, by the calls that put them in. -/
theorem reduceOption_window (hseg : ∀ c ∈ calls, 1 ≤ c.2) (a b : ℕ) :
    (((paddedEntries calls).take b).drop a).reduceOption =
      ((List.range calls.length).filter fun i =>
        a ≤ lastDescriptor calls i + TX_QUEUE_SIZE ∧
          lastDescriptor calls i + TX_QUEUE_SIZE < b).map (callMbuf calls) := by
  induction calls using List.reverseRecOn with
  | nil =>
    have hempty : paddedEntries [] = List.replicate TX_QUEUE_SIZE none := List.append_nil _
    rw [hempty, List.take_replicate, List.drop_replicate, List.reduceOption_replicate_none]
    rfl
  | append_singleton calls c ih =>
    have hold : ∀ c ∈ calls, 1 ≤ c.2 := fun x hx => hseg x (List.mem_append_left _ hx)
    have hc : 1 ≤ c.2 := hseg c (List.mem_append_right _ (List.mem_singleton_self c))
    have hlen : (paddedEntries calls).length =
        TX_QUEUE_SIZE + descriptorsBefore calls calls.length := by
      rw [paddedEntries, List.length_append, runEntries_length hold, List.length_replicate]
    have hlast : lastDescriptor (calls ++ [c]) calls.length =
        descriptorsBefore calls calls.length + (c.2 - 1) := by
      rw [lastDescriptor, descriptorsBefore_succ _ (by simp),
        descriptorsBefore_append _ _ (Nat.le_refl _)]
      simp
      omega
    -- the entries before the new call, and those of the new call
    have hsplit : ((paddedEntries (calls ++ [c])).take b).drop a =
        ((paddedEntries calls).take b).drop a ++
          ((callEntries c.1 c.2).take (b - (paddedEntries calls).length)).drop
            (a - (paddedEntries calls).length) := by
      rw [paddedEntries_append, runEntries_singleton, List.take_append, List.drop_append]
      apply List.append_cancel_left_eq _ _ _ |>.mpr
      by_cases hb : b ≤ (paddedEntries calls).length
      · rw [Nat.sub_eq_zero_of_le hb]
        simp
      · rw [List.length_take, Nat.min_eq_right (by omega)]
    have hprev : (List.range calls.length).filter (fun i =>
          a ≤ lastDescriptor (calls ++ [c]) i + TX_QUEUE_SIZE ∧
            lastDescriptor (calls ++ [c]) i + TX_QUEUE_SIZE < b) =
        (List.range calls.length).filter fun i =>
          a ≤ lastDescriptor calls i + TX_QUEUE_SIZE ∧
            lastDescriptor calls i + TX_QUEUE_SIZE < b := by
      apply List.filter_congr
      intro i hi
      rw [lastDescriptor_append _ _ (List.mem_range.mp hi)]
    have hmbufs : ∀ is : List ℕ, (∀ i ∈ is, i < calls.length) →
        is.map (callMbuf (calls ++ [c])) = is.map (callMbuf calls) := by
      intro is his
      exact List.map_congr_left fun i hi => callMbuf_append _ _ (his i hi)
    rw [hsplit, List.reduceOption_append, ih hold, reduceOption_callEntries, hlen,
      List.length_append, List.length_singleton, List.range_succ, List.filter_append,
      List.map_append, hprev, hmbufs _ fun i hi => List.mem_range.mp (List.mem_filter.mp hi).1]
    apply List.append_cancel_left_eq _ _ _ |>.mpr
    have hnew : callMbuf (calls ++ [c]) calls.length = c.1 := by
      simp [callMbuf]
    by_cases hdue : a ≤ lastDescriptor (calls ++ [c]) calls.length + TX_QUEUE_SIZE ∧
        lastDescriptor (calls ++ [c]) calls.length + TX_QUEUE_SIZE < b
    · rw [if_pos (by omega)]
      simp [hdue, hnew]
    · rw [if_neg (by omega)]
      simp [hdue]

/-! ## The lifetime of an mbuf -/

/-- A run is what comes before a call, the call, and what comes after it. -/
theorem calls_eq_append (calls : List (ℕ × ℕ)) (hi : i < calls.length) :
    calls = calls.take i ++ [calls[i]] ++ calls.drop (i + 1) := by
  rw [← List.take_succ_eq_append_getElem hi, List.take_append_drop]

theorem descriptorsBefore_mono (calls : List (ℕ × ℕ)) (hij : i ≤ j) :
    descriptorsBefore calls i ≤ descriptorsBefore calls j := by
  obtain ⟨k, rfl⟩ := Nat.exists_eq_add_of_le hij
  rw [descriptorsBefore, descriptorsBefore, List.take_add, List.map_append, List.sum_append]
  exact Nat.le_add_right _ _

/-- The last descriptor of a call comes after those of the calls before it. -/
theorem lastDescriptor_spec (hseg : ∀ c ∈ calls, 1 ≤ c.2) (hi : i < calls.length) :
    lastDescriptor calls i + 1 = descriptorsBefore calls (i + 1) ∧
      descriptorsBefore calls i ≤ lastDescriptor calls i := by
  have hone := hseg _ (List.getElem_mem hi)
  rw [lastDescriptor, descriptorsBefore_succ calls hi]
  omega

/-- What a call frees is what its descriptors take out. -/
theorem freedByCall_eq (hseg : ∀ c ∈ calls, 1 ≤ c.2) (hj : j < calls.length) :
    freedByCall calls j = (dueAt calls j).map (callMbuf calls) := by
  have hsegs : ∀ c ∈ calls.take j, 1 ≤ c.2 := fun c hc => hseg c (List.mem_of_mem_take hc)
  have hlen : (calls.take j).length = j := List.length_take_of_le (Nat.le_of_lt hj)
  obtain ⟨hhead, out, hout, hqueue⟩ := ringContent_after hsegs
  rw [hlen, descriptorsBefore_take _ (Nat.le_refl j)] at hhead hout
  have hlt : (rawTxringAfter (calls.take j)).head.toNat < TX_QUEUE_SIZE := by
    rw [hhead]
    exact Nat.mod_lt _ (by decide)
  obtain ⟨new, hnew, hput, hfreed, _⟩ :=
    rawTxringEnqueue_spec hlt calls[j].1 (hseg _ (List.getElem_mem hj))
  -- the entries of the whole run start with what has come out so far
  have hpadded : paddedEntries calls = out ++ new ++
      (ringContent (rawTxringEnqueue (rawTxringAfter (calls.take j)) calls[j].1 calls[j].2).1 ++
        runEntries (calls.drop (j + 1))) := by
    conv_lhs => rw [calls_eq_append calls hj]
    rw [paddedEntries_append, paddedEntries_append, hqueue, runEntries_singleton,
      List.append_assoc out, hput]
    simp only [List.append_assoc]
  have hwindow : ((paddedEntries calls).take (descriptorsBefore calls (j + 1))).drop
      (descriptorsBefore calls j) = new := by
    rw [hpadded, descriptorsBefore_succ calls hj, ← hout, ← hnew, ← List.length_append,
      List.take_left, List.drop_left]
  rw [freedByCall, List.getElem?_eq_getElem hj, dueAt, ← reduceOption_window hseg, hwindow]
  exact hfreed

/-- A later descriptor belongs to exactly one call. -/
theorem existsUnique_call (calls : List (ℕ × ℕ)) {d : ℕ}
    (hd : d < descriptorsBefore calls calls.length) :
    ∃! j, j < calls.length ∧ descriptorsBefore calls j ≤ d ∧ d < descriptorsBefore calls (j + 1) := by
  have hex : ∃ j, d < descriptorsBefore calls (j + 1) :=
    ⟨calls.length, Nat.lt_of_lt_of_le hd (descriptorsBefore_mono calls (Nat.le_succ _))⟩
  have hfirst : descriptorsBefore calls (Nat.find hex) ≤ d := by
    cases hj : Nat.find hex with
    | zero => simp
    | succ j => exact Nat.le_of_not_lt (Nat.find_min hex (hj ▸ Nat.lt_succ_self j))
  refine ⟨Nat.find hex, ⟨?_, hfirst, Nat.find_spec hex⟩, ?_⟩
  · apply Nat.lt_of_not_le
    intro hge
    exact absurd (descriptorsBefore_mono calls hge) (by omega)
  · rintro k ⟨_, hle, hlt⟩
    apply Nat.le_antisymm _ (Nat.find_min' hex hlt)
    apply Nat.le_of_not_lt
    intro hbefore
    have hspec := Nat.find_spec hex
    have hmono := descriptorsBefore_mono calls (i := Nat.find hex + 1) hbefore
    omega

theorem mem_dueAt :
    i ∈ dueAt calls j ↔ i < calls.length ∧
      descriptorsBefore calls j ≤ lastDescriptor calls i + TX_QUEUE_SIZE ∧
      lastDescriptor calls i + TX_QUEUE_SIZE < descriptorsBefore calls (j + 1) := by
  simp [dueAt]

/-- The entry of a call's last descriptor is its mbuf. -/
theorem paddedEntries_lastDescriptor (hseg : ∀ c ∈ calls, 1 ≤ c.2) (hi : i < calls.length) :
    (paddedEntries calls)[lastDescriptor calls i + TX_QUEUE_SIZE]? = some (some (callMbuf calls i)) := by
  have hbefore : (paddedEntries (calls.take i) ++
      List.replicate (calls[i].2 - 1) (none : Option ℕ)).length =
        lastDescriptor calls i + TX_QUEUE_SIZE := by
    have hsegs : ∀ c ∈ calls.take i, 1 ≤ c.2 := fun c hc => hseg c (List.mem_of_mem_take hc)
    have hone := hseg _ (List.getElem_mem hi)
    rw [lastDescriptor, descriptorsBefore_succ calls hi, List.length_append, paddedEntries,
      List.length_append, runEntries_length hsegs, List.length_replicate, List.length_replicate,
      List.length_take_of_le (Nat.le_of_lt hi), descriptorsBefore_take _ (Nat.le_refl i)]
    omega
  have hentries : paddedEntries calls = (paddedEntries (calls.take i) ++
      List.replicate (calls[i].2 - 1) none) ++
        (some calls[i].1 :: runEntries (calls.drop (i + 1))) := by
    conv_lhs => rw [calls_eq_append calls hi]
    rw [paddedEntries_append, paddedEntries_append, runEntries_singleton, callEntries]
    simp only [List.append_assoc, List.singleton_append]
  rw [hentries, List.getElem?_append_right (by omega), hbefore, Nat.sub_self]
  simp [callMbuf, hi]

/-- An mbuf that is not due yet is in the ring, in the slot of its last descriptor. -/
theorem m_table_of_not_due (hseg : ∀ c ∈ calls, 1 ≤ c.2) (hi : i < calls.length)
    (hnot : descriptorsBefore calls calls.length ≤ lastDescriptor calls i + TX_QUEUE_SIZE) :
    (rawTxringAfter calls).m_table (lastDescriptor calls i % TX_QUEUE_SIZE) =
      some (callMbuf calls i) := by
  obtain ⟨hhead, out, hout, hqueue⟩ := ringContent_after hseg
  have hentry := paddedEntries_lastDescriptor hseg hi
  have hlast := (lastDescriptor_spec hseg hi).1
  have hmono := descriptorsBefore_mono calls (i := i + 1) hi
  have hplace : lastDescriptor calls i + TX_QUEUE_SIZE - descriptorsBefore calls calls.length <
      (ringContent (rawTxringAfter calls)).length := by
    rw [ringContent_length]
    omega
  rw [hqueue, List.getElem?_append_right (by omega), hout, List.getElem?_eq_getElem hplace,
    ringContent_getElem, hhead, Nat.mod_add_mod, Nat.add_sub_cancel' hnot, Nat.add_mod_right] at hentry
  exact Option.some.inj hentry

/-- What the ring does with the mbufs of a run. -/
structure DelayedByRing (calls : List (ℕ × ℕ)) : Prop where
  /-- a call frees the mbufs that are due at it, once each and in their order -/
  frees : ∀ j, j < calls.length → freedByCall calls j = (dueAt calls j).map (callMbuf calls)
  sorted : ∀ j, (dueAt calls j).Pairwise (· < ·)
  /-- an mbuf whose last descriptor has been followed by `TX_QUEUE_SIZE` others was due at exactly
  one call -/
  once : ∀ i, i < calls.length →
    lastDescriptor calls i + TX_QUEUE_SIZE < descriptorsBefore calls calls.length →
      ∃! j, j < calls.length ∧ i ∈ dueAt calls j
  /-- which is the first later one that takes the descriptors after it to `TX_QUEUE_SIZE` -/
  first : ∀ i j, i ∈ dueAt calls j → i < j ∧
    lastDescriptor calls i + 1 + TX_QUEUE_SIZE ≤ descriptorsBefore calls (j + 1) ∧
      ∀ k, k ≤ j → descriptorsBefore calls k < lastDescriptor calls i + 1 + TX_QUEUE_SIZE
  /-- another mbuf was due at no call, and is in the ring -/
  kept : ∀ i, i < calls.length →
    descriptorsBefore calls calls.length ≤ lastDescriptor calls i + TX_QUEUE_SIZE →
      (∀ j, j < calls.length → i ∉ dueAt calls j) ∧
        (rawTxringAfter calls).m_table (lastDescriptor calls i % TX_QUEUE_SIZE) =
          some (callMbuf calls i)
  head : (rawTxringAfter calls).head.toNat = descriptorsBefore calls calls.length % TX_QUEUE_SIZE
  head_lt : (rawTxringAfter calls).head.toNat < TX_QUEUE_SIZE

/-- **The ring delays each free by `TX_QUEUE_SIZE` descriptors**, in every run from the zeroed ring. -/
theorem delayed_by_ring (calls : List (ℕ × ℕ)) (hseg : ∀ c ∈ calls, 1 ≤ c.2) :
    DelayedByRing calls where
  frees j hj := freedByCall_eq hseg hj
  sorted j := List.pairwise_lt_range.filter _
  once i hi hdue := by
    obtain ⟨j, ⟨hj, hdescriptor⟩, hunique⟩ := existsUnique_call calls hdue
    refine ⟨j, ⟨hj, mem_dueAt.mpr ⟨hi, hdescriptor⟩⟩, ?_⟩
    rintro k ⟨hk, hmem⟩
    exact hunique k ⟨hk, (mem_dueAt.mp hmem).2⟩
  first i j hmem := by
    obtain ⟨hi, hle, hlt⟩ := mem_dueAt.mp hmem
    refine ⟨?_, by omega, ?_⟩
    · apply Nat.lt_of_not_le
      intro hji
      have hmono := descriptorsBefore_mono calls (i := j + 1) (j := i + 1) (by omega)
      have hlast := (lastDescriptor_spec hseg hi).1
      have hsize : 0 < TX_QUEUE_SIZE := by decide
      omega
    · intro k hk
      have hmono := descriptorsBefore_mono calls hk
      omega
  kept i hi hnot := by
    refine ⟨?_, m_table_of_not_due hseg hi hnot⟩
    intro j hj hmem
    have hmono := descriptorsBefore_mono calls (i := j + 1) hj
    have hdue := (mem_dueAt.mp hmem).2.2
    omega
  head := (ringContent_after hseg).1
  head_lt := by
    rw [(ringContent_after hseg).1]
    exact Nat.mod_lt _ (by decide)

/-- The mbuf of a packet of two segments is freed by a call that consumes 600 descriptors after it. -/
theorem delayed_by_ring_twoSegments : freedByCall [(7, 2), (8, 600)] 1 = [7] :=
  ((delayed_by_ring [(7, 2), (8, 600)] (by decide)).frees 1 (by decide)).trans (by decide)

end FStack.Analysis
