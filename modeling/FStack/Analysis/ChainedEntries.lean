import FStack.Model.HashChain
import FStack.Model.HashDrain
import FStack.Prelude.Monitored
import Mathlib.Algebra.Order.BigOperators.Group.Finset
import Mathlib.Tactic.Linarith

/-!
# A hash table as a set of entries

A `HashList` is a set of objects: the chains of its buckets are finite, each object is in the chain of its hash value at
most once, and the calls put objects in, take them out and find them.  Whether an object is in the table is read off
its link and its stored hash value.  For an object whose hash value is 0 and that is the last of its chain both are
zero, and a second insertion links it to itself.  `chained_hash_right_iff` says that there is no other danger, but for the
`int` that counts the entries.
-/

set_option autoImplicit false

namespace FStack.Analysis

open FStack.Model FStack.Prelude HashFields

variable {α κ : Type}

/-! ## What the calls have to do -/

/-- The start of a bucket's chain. -/
def bucketStart (t : ChainedHash α κ) (i : ℕ) : Option α := t.buckets.bind fun buckets => buckets i

/-- The chain of a bucket has come to its end after these entries. -/
def IsChain (t : ChainedHash α κ) (i : ℕ) (es : List α) : Prop :=
  Seg (fun e => (t.obj e).next_entry) (bucketStart t i) es none

/-- The object is in a chain. -/
def Present (t : ChainedHash α κ) (e : α) : Prop := ∃ i < t.max, ∃ es, IsChain t i es ∧ e ∈ es

variable [HashFields κ]

/-- The bucket of the hash value of an object. -/
def entryIndex (t : ChainedHash α κ) (e : α) : ℕ := t.index (hashValue (t.obj e).key)

/-- Every chain ends and has no entry twice, its entries are in the bucket of their hash value, and `HashSize` is their
number. -/
def HashTableRight (t : ChainedHash α κ) : Prop :=
  ∃ chains : ℕ → List α,
    (∀ i < t.max, IsChain t i (chains i) ∧ (chains i).Nodup ∧ ∀ e ∈ chains i, entryIndex t e = i) ∧
      t.hashSize = ((∑ i ∈ Finset.range t.max, (chains i).length : ℕ) : ℤ)

/-- No entry compares equal to a key. -/
def NoneEqual (t : ChainedHash α κ) (key : Option κ) : Prop :=
  ∀ k, key = some k → ∀ e, Present t e → hashCmp (t.obj e).key k ≠ 0

/-- The hash value of an entry does not change while it is in the table. -/
def HashKept (t : ChainedHash α κ) : HashCall α κ → Prop
  | .write e key => Present t e → hashValue key = hashValue (t.obj e).key
  | _ => True

/-- An entry is not inserted again if its hash value is 0 and it is the last of its chain, and the number of entries
stays an `int`. -/
def InsertSafe (t : ChainedHash α κ) : HashCall α κ → Prop
  | .insert (some e) => (Present t e → (t.obj e).hash_value ≠ 0 ∨ (t.obj e).next_entry ≠ none) ∧
      (¬ Present t e → t.buckets.isSome → t.count < 2 ^ 31 - 1)
  | _ => True

section

variable [DecidableEq α]

/-- What a call has to do with the set of entries. -/
def HashCallRight (t : ChainedHash α κ) : HashCall α κ → Prop
  | .insert key => ∀ e, key = some e → (Present t e → t.hashInsert key = (t, -2)) ∧
      (¬ Present t e → t.buckets.isSome → (t.hashInsert key).2 = 0 ∧
        ∀ x, Present (t.hashInsert key).1 x ↔ x = e ∨ Present t x)
  | .find key => ∃ r, t.hashFind key = some r ∧ (r = none → NoneEqual t key) ∧
      ∀ e, r = some e → Present t e ∧ ∃ k, key = some k ∧ hashCmp (t.obj e).key k = 0
  | .remove key => ∃ t', t.hashRemove key = some t' ∧ (t' = t ∧ NoneEqual t key ∨
      ∃ k e, key = some k ∧ Present t e ∧ hashCmp (t.obj e).key k = 0 ∧ ∀ x, Present t' x ↔ Present t x ∧ x ≠ e)
  | .getFirst => (t.hashGetFirst = none → ∀ e, ¬ Present t e) ∧ ∀ e, t.hashGetFirst = some e → Present t e
  | .write _ _ => True

/-- A call is right, and so is the table after it. -/
def HashRight (t : ChainedHash α κ) (call : HashCall α κ) : Prop := HashCallRight t call ∧ HashTableRight (t.step call)

end

/-! ## The chains -/

/-- The chains of the buckets, with all that is stored in the objects. -/
structure Chained (t : ChainedHash α κ) (chains : ℕ → List α) : Prop where
  max_pos : 0 < t.max
  chain : ∀ i < t.max, IsChain t i (chains i)
  nodup : ∀ i < t.max, (chains i).Nodup
  placed : ∀ i < t.max, ∀ e ∈ chains i, entryIndex t e = i
  stored : ∀ i < t.max, ∀ e ∈ chains i, (t.obj e).hash_value = hashValue (t.obj e).key
  loose : ∀ e, (∀ i < t.max, e ∉ chains i) → (t.obj e).next_entry = none ∧ (t.obj e).hash_value = 0
  count : t.count = ((∑ i ∈ Finset.range t.max, (chains i).length : ℕ) : ℤ)
  small : t.count < 2 ^ 31

variable {t : ChainedHash α κ} {chains : ℕ → List α} {e : α}

theorem Chained.present_iff (h : Chained t chains) : Present t e ↔ ∃ i < t.max, e ∈ chains i := by
  constructor
  · rintro ⟨i, hi, es, hes, he⟩
    exact ⟨i, hi, (h.chain i hi).unique hes ▸ he⟩
  · rintro ⟨i, hi, he⟩
    exact ⟨i, hi, chains i, h.chain i hi, he⟩

theorem Chained.index_lt (h : Chained t chains) (hash : BitVec 32) : t.index hash < t.max := Nat.mod_lt _ h.max_pos

theorem Chained.present_iff_mem (h : Chained t chains) : Present t e ↔ e ∈ chains (entryIndex t e) := by
  rw [h.present_iff]
  constructor
  · rintro ⟨i, hi, he⟩
    rwa [h.placed i hi e he]
  · intro he
    exact ⟨entryIndex t e, h.index_lt _, he⟩

theorem Chained.tableRight (h : Chained t chains) : HashTableRight t :=
  ⟨chains, fun i hi => ⟨h.chain i hi, h.nodup i hi, h.placed i hi⟩, h.count⟩

theorem Chained.length_le (h : Chained t chains) {i : ℕ} (hi : i < t.max) : (chains i).length < t.count.toNat + 1 := by
  have hle := Finset.single_le_sum (f := fun i => (chains i).length) (fun _ _ => Nat.zero_le _) (Finset.mem_range.mpr hi)
  rw [h.count, Int.toNat_natCast]
  exact Nat.lt_succ_of_le hle

/-- Without buckets, there are no entries. -/
theorem Chained.not_present (h : Chained t chains) (hnone : t.buckets = none) : ¬ Present t e := by
  rw [h.present_iff]
  rintro ⟨i, hi, he⟩
  have hchain := h.chain i hi
  rw [IsChain, bucketStart, hnone, Option.bind_none] at hchain
  rw [hchain.unique (show Seg _ none [] none from rfl)] at he
  exact List.not_mem_nil he

omit [HashFields κ] in
/-- The number of entries when one chain changes. -/
theorem sum_length_update {n idx : ℕ} (hidx : idx < n) (chains : ℕ → List α) (es : List α) :
    ∑ i ∈ Finset.range n, (Function.update chains idx es i).length + (chains idx).length =
      ∑ i ∈ Finset.range n, (chains i).length + es.length := by
  have hmem := Finset.mem_range.mpr hidx
  rw [← Finset.add_sum_erase _ _ hmem, ← Finset.add_sum_erase _ (fun i => (chains i).length) hmem,
    Function.update_self, Finset.sum_congr rfl fun i hi => by rw [Function.update_of_ne (Finset.ne_of_mem_erase hi)]]
  omega

/-! ## The loop over a bucket -/

theorem Chained.isMatch_iff (h : Chained t chains) {i : ℕ} (hi : i < t.max) (he : e ∈ chains i) (key : κ) :
    t.isMatch key e = true ↔ hashCmp (t.obj e).key key = 0 := by
  rw [ChainedHash.isMatch, h.stored i hi e he, Bool.and_eq_true, decide_eq_true_iff, decide_eq_true_iff]
  exact ⟨fun hmatch => hmatch.2, fun heq => ⟨hashValue_eq heq, heq⟩⟩

/-- The loop ends with the first match, or there is no entry that compares equal.
SOURCE: hash_list.h:119-132, 153-160 -/
theorem Chained.chainLoop (h : Chained t chains) {buckets : ℕ → Option α} (hbuckets : t.buckets = some buckets)
    (key : κ) :
    (∃ pre e post, chains (t.index (hashValue key)) = pre ++ e :: post ∧ hashCmp (t.obj e).key key = 0 ∧
        t.chainLoop buckets key = some (some (pre.getLast?, e))) ∨
      NoneEqual t (some key) ∧ t.chainLoop buckets key = some none := by
  have hidx := h.index_lt (hashValue key)
  have hchain := h.chain _ hidx
  rw [IsChain, bucketStart, hbuckets, Option.bind_some] at hchain
  rcases searchChain_of_seg (t.isMatch key) hchain (h.length_le hidx) none with
    ⟨pre, e, post, hsplit, hfound, hsearch⟩ | ⟨hnone, hsearch⟩
  · refine .inl ⟨pre, e, post, hsplit, ?_, ?_⟩
    · exact (h.isMatch_iff hidx (hsplit ▸ List.mem_append_right pre List.mem_cons_self) key).mp hfound
    · rw [ChainedHash.chainLoop, hsearch, Option.or_none]
  · refine .inr ⟨fun k hk e he heq => ?_, hsearch⟩
    obtain rfl := Option.some.inj hk
    have hmem := h.present_iff_mem.mp he
    rw [entryIndex, hashValue_eq heq] at hmem
    exact Bool.eq_false_iff.mp (hnone e hmem) ((h.isMatch_iff hidx hmem key).mpr heq)

/-! ## Insertion -/

/-- The chains after `e` has been put to the front of one of them. -/
theorem mem_update_front {chains : ℕ → List α} {idx i : ℕ} {x : α} :
    x ∈ Function.update chains idx (e :: chains idx) i ↔ i = idx ∧ x = e ∨ x ∈ chains i := by
  by_cases heq : i = idx
  · subst heq
    rw [Function.update_self, List.mem_cons, and_iff_right rfl]
  · rw [Function.update_of_ne heq, iff_false_intro heq, false_and, false_or]

variable [DecidableEq α]

/-- An object whose link and hash value are zero goes to the front of its bucket.
SOURCE: hash_list.h:95-108 -/
theorem hashInsert_fresh {buckets : ℕ → Option α} (hbuckets : t.buckets = some buckets)
    (hfresh : (t.obj e).next_entry = none ∧ (t.obj e).hash_value = 0) :
    t.hashInsert (some e) =
      ({ t with
          buckets := some (Function.update buckets (entryIndex t e) (some e))
          count := (t.count + 1).bmod (2 ^ 32)
          obj := Function.update t.obj e ⟨buckets (entryIndex t e), hashValue (t.obj e).key, (t.obj e).key⟩ }, 0) := by
  unfold ChainedHash.hashInsert
  rw [hbuckets]
  exact if_neg fun h => h.elim (fun hne => hne hfresh.2) fun hne => hne hfresh.1

theorem hashInsert_stored (hstored : (t.obj e).hash_value ≠ 0 ∨ (t.obj e).next_entry ≠ none)
    (hbuckets : t.buckets.isSome) : t.hashInsert (some e) = (t, -2) := by
  obtain ⟨buckets, hsome⟩ := Option.isSome_iff_exists.mp hbuckets
  unfold ChainedHash.hashInsert
  rw [hsome]
  exact if_pos hstored

/-- The chains after an insertion. -/
theorem Chained.insert (h : Chained t chains) (habsent : ¬ Present t e) (hbuckets : t.buckets.isSome)
    (hsmall : t.count < 2 ^ 31 - 1) :
    (t.hashInsert (some e)).2 = 0 ∧ Chained (t.hashInsert (some e)).1
      (Function.update chains (entryIndex t e) (e :: chains (entryIndex t e))) := by
  obtain ⟨buckets, hsome⟩ := Option.isSome_iff_exists.mp hbuckets
  have hnot : ∀ i < t.max, e ∉ chains i := fun i hi he => habsent (h.present_iff.mpr ⟨i, hi, he⟩)
  rw [hashInsert_fresh hsome (h.loose e hnot)]
  refine ⟨rfl, ?_⟩
  have hidx : entryIndex t e < t.max := h.index_lt _
  have hstart : ∀ i, bucketStart t i = buckets i := fun i => by rw [bucketStart, hsome, Option.bind_some]
  -- the objects in the chains are not touched
  have hother : ∀ i < t.max, ∀ x ∈ chains i, x ≠ e := fun i hi x hx heq => hnot i hi (heq ▸ hx)
  have hsum := sum_length_update hidx chains (e :: chains (entryIndex t e))
  have hcount := h.count
  rw [List.length_cons] at hsum
  constructor
  · exact h.max_pos
  · intro i hi
    have hrest : Seg (fun x => (Function.update t.obj e
        ⟨buckets (entryIndex t e), hashValue (t.obj e).key, (t.obj e).key⟩ x).next_entry) (buckets i) (chains i) none := by
      rw [← hstart i]
      refine (h.chain i hi).congr fun x hx => ?_
      rw [Function.update_of_ne (hother i hi x hx)]
    by_cases heq : i = entryIndex t e
    · subst heq
      rw [Function.update_self]
      refine ⟨Function.update_self _ _ _, ?_⟩
      dsimp only
      rw [Function.update_self]
      exact hrest
    · rw [Function.update_of_ne heq, IsChain, bucketStart, Option.bind_some, Function.update_of_ne heq]
      exact hrest
  · intro i hi
    by_cases heq : i = entryIndex t e
    · subst heq
      rw [Function.update_self]
      exact List.nodup_cons.mpr ⟨hnot _ hi, h.nodup _ hi⟩
    · rw [Function.update_of_ne heq]
      exact h.nodup i hi
  · intro i hi x hx
    rw [entryIndex]
    dsimp only
    rcases mem_update_front.mp hx with ⟨rfl, rfl⟩ | hx
    · rw [Function.update_self]
      rfl
    · rw [Function.update_of_ne (hother _ hi x hx)]
      exact h.placed i hi x hx
  · intro i hi x hx
    dsimp only
    rcases mem_update_front.mp hx with ⟨rfl, rfl⟩ | hx
    · rw [Function.update_self]
    · rw [Function.update_of_ne (hother i hi x hx)]
      exact h.stored i hi x hx
  · intro x hx
    have hxe : x ≠ e := fun heq => hx _ hidx (mem_update_front.mpr (.inl ⟨rfl, heq⟩))
    dsimp only
    rw [Function.update_of_ne hxe]
    exact h.loose x fun i hi hmem => hx i hi (mem_update_front.mpr (.inr hmem))
  · dsimp only
    rw [Int.bmod_eq_of_le (by omega) (by omega)]
    omega
  · dsimp only
    rw [Int.bmod_eq_of_le (by omega) (by omega)]
    omega

/-! ## Lookup -/

/-- `HashFind` finds an entry that compares equal, if there is one.
SOURCE: hash_list.h:113-134 -/
theorem Chained.find_right (h : Chained t chains) (key : Option κ) : HashCallRight t (.find key) := by
  cases key with
  | none => exact ⟨none, rfl, fun _ k hk => absurd hk (Option.some_ne_none k).symm, fun e he => absurd he nofun⟩
  | some key =>
    cases hbuckets : t.buckets with
    | none =>
      refine ⟨none, ?_, fun _ _ _ e he => absurd he (h.not_present hbuckets), fun e he => absurd he nofun⟩
      unfold ChainedHash.hashFind
      rw [hbuckets]
    | some buckets =>
      have hfind : t.hashFind (some key) = (t.chainLoop buckets key).map (Option.map Prod.snd) := by
        unfold ChainedHash.hashFind
        rw [hbuckets]
      rw [HashCallRight, hfind]
      rcases h.chainLoop hbuckets key with ⟨pre, e, post, hsplit, heq, hloop⟩ | ⟨hnone, hloop⟩
      · refine ⟨some e, by rw [hloop]; rfl, fun hno => absurd hno (Option.some_ne_none e), fun x hx => ?_⟩
        obtain rfl := Option.some.inj hx
        have hmem : e ∈ chains (t.index (hashValue key)) := hsplit ▸ List.mem_append_right pre List.mem_cons_self
        exact ⟨h.present_iff.mpr ⟨_, h.index_lt _, hmem⟩, key, rfl, heq⟩
      · exact ⟨none, by rw [hloop]; rfl, fun _ => hnone, fun e he => absurd he nofun⟩

/-! ## Removal -/

section Unlink

variable {buckets : ℕ → Option α} {idx : ℕ} {prev : Option α} {x : α}

omit [HashFields κ] in
theorem unlink_self : (t.unlink buckets idx prev e).obj e = ⟨none, 0, (t.obj e).key⟩ := by
  unfold ChainedHash.unlink
  cases prev with
  | none => exact Function.update_self _ _ _
  | some q =>
    dsimp only
    rw [Function.update_self]
    by_cases hq : e = q
    · subst hq
      rw [Function.update_self]
    · rw [Function.update_of_ne hq]

omit [HashFields κ] in
theorem unlink_of_ne (hx : x ≠ e) :
    (t.unlink buckets idx prev e).obj x =
      { t.obj x with next_entry := if prev = some x then (t.obj e).next_entry else (t.obj x).next_entry } := by
  unfold ChainedHash.unlink
  cases prev with
  | none =>
    dsimp only
    rw [Function.update_of_ne hx, if_neg (Option.some_ne_none x).symm]
  | some q =>
    dsimp only
    rw [Function.update_of_ne hx]
    by_cases hq : x = q
    · subst hq
      rw [Function.update_self, if_pos rfl]
    · rw [Function.update_of_ne hq, if_neg fun heq => hq (Option.some.inj heq).symm]

omit [HashFields κ] in
theorem unlink_key : ((t.unlink buckets idx prev e).obj x).key = (t.obj x).key := by
  by_cases hx : x = e
  · rw [hx, unlink_self]
  · rw [unlink_of_ne hx]

omit [HashFields κ] in
theorem unlink_max : (t.unlink buckets idx prev e).max = t.max := by
  unfold ChainedHash.unlink
  cases prev <;> rfl

theorem unlink_entryIndex : entryIndex (t.unlink buckets idx prev e) x = entryIndex t x := by
  rw [entryIndex, entryIndex, unlink_key, ChainedHash.index, ChainedHash.index, unlink_max]

omit [HashFields κ] in
theorem unlink_start (hbuckets : t.buckets = some buckets) (i : ℕ) :
    bucketStart (t.unlink buckets idx prev e) i =
      if prev = none ∧ i = idx then (t.obj e).next_entry else bucketStart t i := by
  unfold ChainedHash.unlink
  cases prev with
  | none =>
    rw [bucketStart, bucketStart, hbuckets, Option.bind_some, Option.bind_some, Function.update_apply]
    simp only [true_and]
  | some q => exact (if_neg fun h => Option.some_ne_none q h.1).symm

/-- The chains after an entry has been taken out.
SOURCE: hash_list.h:161-170 -/
theorem Chained.unlink (h : Chained t chains) (hbuckets : t.buckets = some buckets) (hidx : idx < t.max)
    {pre post : List α} (hsplit : chains idx = pre ++ e :: post) :
    Chained (t.unlink buckets idx pre.getLast? e) (Function.update chains idx (pre ++ post)) := by
  have hnodup : (pre ++ e :: post).Nodup := hsplit ▸ h.nodup idx hidx
  have hold : ∀ i, ∀ x ∈ Function.update chains idx (pre ++ post) i, x ∈ chains i ∧ x ≠ e ∨ i ≠ idx ∧ x ∈ chains i := by
    intro i x hx
    by_cases heq : i = idx
    · subst heq
      rw [Function.update_self] at hx
      refine .inl ⟨?_, ?_⟩
      · rw [hsplit]
        exact (List.Sublist.append_left (List.sublist_cons_self e post) pre).subset hx
      · rintro rfl
        exact (List.nodup_middle.mp hnodup).notMem hx
    · rw [Function.update_of_ne heq] at hx
      exact .inr ⟨heq, hx⟩
  -- an entry of another bucket is neither the one that goes nor the one before it
  have hother : ∀ i < t.max, i ≠ idx → ∀ x ∈ chains i, x ≠ e ∧ pre.getLast? ≠ some x := by
    intro i hi hne x hx
    have hout : x ∉ chains idx := fun hin => hne ((h.placed i hi x hx).symm.trans (h.placed idx hidx x hin))
    rw [hsplit] at hout
    constructor
    · rintro rfl
      exact hout (List.mem_append_right pre List.mem_cons_self)
    · intro hlast
      exact hout (List.mem_append_left _ (List.mem_of_getLast? hlast))
  have hne : ∀ i < t.max, ∀ x ∈ Function.update chains idx (pre ++ post) i, x ∈ chains i ∧ x ≠ e := by
    intro i hi x hx
    rcases hold i x hx with hmem | ⟨hneq, hmem⟩
    · exact hmem
    · exact ⟨hmem, (hother i hi hneq x hmem).1⟩
  have hsum := sum_length_update hidx chains (pre ++ post)
  have hcount := h.count
  have hsmall := h.small
  rw [hsplit, List.length_append, List.length_append, List.length_cons] at hsum
  have hnew : (t.unlink buckets idx pre.getLast? e).count = (t.count - 1).bmod (2 ^ 32) := by
    unfold ChainedHash.unlink
    cases pre.getLast? <;> rfl
  rw [Int.bmod_eq_of_le (by omega) (by omega)] at hnew
  constructor
  · rw [unlink_max]
    exact h.max_pos
  · intro i hi
    rw [unlink_max] at hi
    rw [IsChain, unlink_start hbuckets]
    by_cases heq : i = idx
    · subst heq
      have hchain : Seg (fun x => (t.obj x).next_entry) (bucketStart t i) (pre ++ e :: post) none := hsplit ▸ h.chain i hi
      rw [Function.update_self]
      have hstart : (if pre.getLast? = none ∧ i = i then (t.obj e).next_entry else bucketStart t i) =
          if pre = [] then (t.obj e).next_entry else bucketStart t i := by
        simp only [List.getLast?_eq_none_iff, and_true]
      rw [hstart]
      refine hchain.unlink (fun x hx => ?_) (fun x hx hlast => ?_) hnodup
      · have hxe : x ≠ e := by
          rintro rfl
          exact (List.nodup_append.mp hnodup).2.2 x (List.mem_of_getLast? hx) x List.mem_cons_self rfl
        rw [unlink_of_ne hxe, if_pos hx]
      · have hxe : x ≠ e := by
          rintro rfl
          exact (List.nodup_middle.mp hnodup).notMem hx
        rw [unlink_of_ne hxe, if_neg hlast]
    · rw [if_neg fun hboth => heq hboth.2, Function.update_of_ne heq]
      refine (h.chain i hi).congr fun x hx => ?_
      obtain ⟨hxe, hlast⟩ := hother i hi heq x hx
      rw [unlink_of_ne hxe, if_neg hlast]
  · intro i hi
    rw [unlink_max] at hi
    by_cases heq : i = idx
    · subst heq
      rw [Function.update_self]
      exact (List.nodup_middle.mp hnodup).of_cons
    · rw [Function.update_of_ne heq]
      exact h.nodup i hi
  · intro i hi x hx
    rw [unlink_max] at hi
    rw [unlink_entryIndex]
    exact h.placed i hi x (hne i hi x hx).1
  · intro i hi x hx
    rw [unlink_max] at hi
    obtain ⟨hmem, hxe⟩ := hne i hi x hx
    rw [unlink_of_ne hxe]
    exact h.stored i hi x hmem
  · intro x hx
    rw [unlink_max] at hx
    by_cases hxe : x = e
    · rw [hxe, unlink_self]
      exact ⟨rfl, rfl⟩
    · have hmiddle := hx idx hidx
      rw [Function.update_self] at hmiddle
      have hlast : pre.getLast? ≠ some x := fun hlast =>
        hmiddle (List.mem_append_left post (List.mem_of_getLast? hlast))
      rw [unlink_of_ne hxe, if_neg hlast]
      refine h.loose x fun i hi hmem => ?_
      by_cases heq : i = idx
      · subst heq
        rw [hsplit] at hmem
        refine hmiddle ?_
        rcases List.mem_append.mp hmem with hpre | hpost
        · exact List.mem_append_left post hpre
        · exact List.mem_append_right pre (List.mem_of_ne_of_mem hxe hpost)
      · refine hx i hi ?_
        rwa [Function.update_of_ne heq]
  · rw [hnew, unlink_max]
    omega
  · rw [hnew]
    omega

end Unlink

/-- `HashRemove` takes an entry out that compares equal, if there is one.
SOURCE: hash_list.h:150-174 -/
theorem Chained.remove (h : Chained t chains) (key : Option κ) :
    HashCallRight t (.remove key) ∧ ∃ chains', Chained (t.step (.remove key)) chains' := by
  rw [ChainedHash.step]
  cases key with
  | none => exact ⟨⟨t, rfl, .inl ⟨rfl, fun k hk => absurd hk (Option.some_ne_none k).symm⟩⟩, chains, h⟩
  | some key =>
    cases hbuckets : t.buckets with
    | none =>
      have hremove : t.hashRemove (some key) = some t := by
        unfold ChainedHash.hashRemove
        rw [hbuckets]
      refine ⟨⟨t, hremove, .inl ⟨rfl, fun _ _ _ he => absurd he (h.not_present hbuckets)⟩⟩, chains, ?_⟩
      rw [hremove]
      exact h
    | some buckets =>
      rcases h.chainLoop hbuckets key with ⟨pre, e, post, hsplit, heq, hloop⟩ | ⟨hnone, hloop⟩
      · have hremove : t.hashRemove (some key) =
            some (t.unlink buckets (t.index (hashValue key)) pre.getLast? e) := by
          unfold ChainedHash.hashRemove
          rw [hbuckets]
          dsimp only
          rw [hloop]
          rfl
        have hidx := h.index_lt (hashValue key)
        have hafter := h.unlink hbuckets hidx hsplit
        have hmem : e ∈ chains (t.index (hashValue key)) := hsplit ▸ List.mem_append_right pre List.mem_cons_self
        have hplace := h.placed _ hidx e hmem
        have hgone : e ∉ pre ++ post := (List.nodup_middle.mp (hsplit ▸ h.nodup _ hidx)).notMem
        have hgoes : ∃ chains', Chained ((t.hashRemove (some key)).getD t) chains' := by
          rw [hremove]
          exact ⟨_, hafter⟩
        refine ⟨⟨_, hremove, .inr ⟨key, e, rfl, h.present_iff.mpr ⟨_, hidx, hmem⟩, heq, fun x => ?_⟩⟩, hgoes⟩
        rw [hafter.present_iff_mem, h.present_iff_mem, unlink_entryIndex]
        by_cases hx : entryIndex t x = t.index (hashValue key)
        · rw [hx, Function.update_self, hsplit]
          constructor
          · intro hin
            refine ⟨(List.Sublist.append_left (List.sublist_cons_self e post) pre).subset hin, ?_⟩
            rintro rfl
            exact hgone hin
          · rintro ⟨hin, hxe⟩
            rcases List.mem_append.mp hin with hpre | hpost
            · exact List.mem_append_left post hpre
            · exact List.mem_append_right pre (List.mem_of_ne_of_mem hxe hpost)
        · rw [Function.update_of_ne hx]
          refine (and_iff_left ?_).symm
          rintro rfl
          exact hx hplace
      · have hremove : t.hashRemove (some key) = some t := by
          unfold ChainedHash.hashRemove
          rw [hbuckets]
          dsimp only
          rw [hloop]
          rfl
        refine ⟨⟨t, hremove, .inl ⟨rfl, hnone⟩⟩, chains, ?_⟩
        rw [hremove]
        exact h

/-! ## The other calls -/

theorem Chained.getFirst_right (h : Chained t chains) : HashCallRight t .getFirst := by
  rw [HashCallRight, ChainedHash.hashGetFirst]
  cases hbuckets : t.buckets with
  | none => exact ⟨fun _ _ => h.not_present hbuckets, fun e he => absurd he nofun⟩
  | some buckets =>
    rw [Option.bind_some]
    have hstart : ∀ i, bucketStart t i = buckets i := fun i => by rw [bucketStart, hbuckets, Option.bind_some]
    constructor
    · intro hnone e he
      obtain ⟨i, hi, hmem⟩ := h.present_iff.mp he
      have hempty := List.findSome?_eq_none_iff.mp hnone i (List.mem_range.mpr hi)
      have hchain := h.chain i hi
      rw [IsChain, hstart, hempty] at hchain
      rw [hchain.unique (show Seg _ none [] none from rfl)] at hmem
      exact List.not_mem_nil hmem
    · intro e he
      obtain ⟨i, hi, hsome⟩ := List.exists_of_findSome?_eq_some he
      have hlt := List.mem_range.mp hi
      have hchain := h.chain i hlt
      rw [IsChain, hstart, hsome] at hchain
      refine h.present_iff.mpr ⟨i, hlt, ?_⟩
      cases hes : chains i with
      | nil =>
        rw [hes] at hchain
        exact absurd (show some e = none from hchain) (Option.some_ne_none e)
      | cons f es =>
        rw [hes] at hchain
        obtain rfl := Option.some.inj hchain.1
        exact List.mem_cons_self

/-- The fields of an object are written. -/
theorem Chained.write (h : Chained t chains) {key : κ} (hkept : HashKept t (.write e key)) :
    Chained (t.step (.write e key)) chains := by
  have hobj : ∀ x, (Function.update t.obj e { t.obj e with key := key } x).next_entry = (t.obj x).next_entry ∧
      (Function.update t.obj e { t.obj e with key := key } x).hash_value = (t.obj x).hash_value ∧
      (Present t x → hashValue (Function.update t.obj e { t.obj e with key := key } x).key =
        hashValue (t.obj x).key) := by
    intro x
    by_cases hx : x = e
    · subst hx
      rw [Function.update_self]
      exact ⟨rfl, rfl, hkept⟩
    · rw [Function.update_of_ne hx]
      exact ⟨rfl, rfl, fun _ => rfl⟩
  have hin : ∀ i < t.max, ∀ x ∈ chains i, Present t x := fun i hi x hx => h.present_iff.mpr ⟨i, hi, hx⟩
  exact {
    max_pos := h.max_pos
    chain := fun i hi => (h.chain i hi).congr fun x _ => (hobj x).1
    nodup := h.nodup
    placed := fun i hi x hx =>
      (congrArg t.index ((hobj x).2.2 (hin i hi x hx))).trans (h.placed i hi x hx)
    stored := fun i hi x hx =>
      (hobj x).2.1.trans ((h.stored i hi x hx).trans ((hobj x).2.2 (hin i hi x hx)).symm)
    loose := fun x hx => ⟨(hobj x).1.trans (h.loose x hx).1, (hobj x).2.1.trans (h.loose x hx).2⟩
    count := h.count
    small := h.small }

/-! ## Runs -/

/-- An insertion is right if and only if it is safe.
SOURCE: hash_list.h:90-108 -/
theorem Chained.insert_right_iff (h : Chained t chains) (key : Option α) :
    HashRight t (.insert key) ↔ InsertSafe t (.insert key) := by
  cases key with
  | none => exact iff_of_true ⟨fun e he => absurd he (Option.some_ne_none e).symm, h.tableRight⟩ trivial
  | some e =>
    constructor
    · rintro ⟨hcall, htable⟩
      obtain ⟨hpresent, habsent⟩ := hcall e rfl
      refine ⟨fun hin => ?_, fun hout hbuckets => ?_⟩
      · -- the second insertion of an entry with two zeros is successful
        by_contra hzero
        push Not at hzero
        have hbuckets : t.buckets.isSome := by
          by_contra hno
          exact h.not_present (Option.not_isSome_iff_eq_none.mp hno) hin
        obtain ⟨buckets, hsome⟩ := Option.isSome_iff_exists.mp hbuckets
        have hinserted := hpresent hin
        rw [hashInsert_fresh hsome ⟨hzero.2, hzero.1⟩] at hinserted
        exact absurd (Prod.mk.inj hinserted).2 (by decide)
      · -- the number of entries and the counter differ by 2^32
        by_contra hlarge
        obtain ⟨buckets, hsome⟩ := Option.isSome_iff_exists.mp hbuckets
        have hnot : ∀ i < t.max, e ∉ chains i := fun i hi he => hout (h.present_iff.mpr ⟨i, hi, he⟩)
        obtain ⟨chains', -, hsize⟩ := htable
        have hsmall := h.small
        have hcount : (t.step (.insert (some e))).hashSize = (t.count + 1).bmod (2 ^ 32) := by
          rw [ChainedHash.step, hashInsert_fresh hsome (h.loose e hnot)]
          rfl
        have hmax : t.count = 2 ^ 31 - 1 := by omega
        rw [hcount, hmax] at hsize
        have hneg : ((2 ^ 31 - 1 : ℤ) + 1).bmod (2 ^ 32) = -2 ^ 31 := by decide
        rw [hneg] at hsize
        omega
    · rintro ⟨hzero, hsmall⟩
      by_cases hin : Present t e
      · have hbuckets : t.buckets.isSome := by
          by_contra hno
          exact h.not_present (Option.not_isSome_iff_eq_none.mp hno) hin
        have hkept := hashInsert_stored (hzero hin) hbuckets
        refine ⟨fun x hx => ?_, ?_⟩
        · obtain rfl := Option.some.inj hx
          exact ⟨fun _ => hkept, fun hout => absurd hin hout⟩
        · rw [ChainedHash.step, hkept]
          exact h.tableRight
      · by_cases hbuckets : t.buckets.isSome
        · obtain ⟨hok, hafter⟩ := h.insert hin hbuckets (hsmall hin hbuckets)
          refine ⟨fun x hx => ?_, hafter.tableRight⟩
          obtain rfl := Option.some.inj hx
          refine ⟨fun hpresent => absurd hpresent hin, fun _ _ => ⟨hok, fun x => ?_⟩⟩
          have hidx : entryIndex t e < t.max := h.index_lt _
          have hmax : (t.hashInsert (some e)).1.max = t.max := by
            obtain ⟨buckets, hsome⟩ := Option.isSome_iff_exists.mp hbuckets
            rw [hashInsert_fresh hsome (h.loose e fun i hi he => hin (h.present_iff.mpr ⟨i, hi, he⟩))]
          rw [hafter.present_iff, h.present_iff, hmax]
          constructor
          · rintro ⟨i, hi, hx⟩
            exact (mem_update_front.mp hx).imp And.right fun hx => ⟨i, hi, hx⟩
          · rintro (rfl | ⟨i, hi, hx⟩)
            · exact ⟨_, hidx, mem_update_front.mpr (.inl ⟨rfl, rfl⟩)⟩
            · exact ⟨i, hi, mem_update_front.mpr (.inr hx)⟩
        · refine ⟨fun x hx => ⟨fun hpresent => ?_, fun _ hsome => absurd hsome hbuckets⟩, ?_⟩
          · obtain rfl := Option.some.inj hx
            exact absurd hpresent hin
          · have hsame : t.hashInsert (some e) = (t, -1) := by
              unfold ChainedHash.hashInsert
              rw [Option.not_isSome_iff_eq_none.mp hbuckets]
            rw [ChainedHash.step, hsame]
            exact h.tableRight

/-- The chains after a safe insertion. -/
theorem Chained.after_insert (h : Chained t chains) {key : Option α} (hsafe : InsertSafe t (.insert key)) :
    ∃ chains', Chained (t.step (.insert key)) chains' := by
  cases key with
  | none => exact ⟨chains, h⟩
  | some e =>
    rw [ChainedHash.step]
    by_cases hbuckets : t.buckets.isSome
    · by_cases hin : Present t e
      · rw [hashInsert_stored (hsafe.1 hin) hbuckets]
        exact ⟨chains, h⟩
      · exact ⟨_, (h.insert hin hbuckets (hsafe.2 hin hbuckets)).2⟩
    · refine ⟨chains, ?_⟩
      unfold ChainedHash.hashInsert
      rw [Option.not_isSome_iff_eq_none.mp hbuckets]
      exact h

theorem Chained.right_iff (h : Chained t chains) {call : HashCall α κ} (hkept : HashKept t call) :
    HashRight t call ↔ InsertSafe t call := by
  cases call with
  | insert key => exact h.insert_right_iff key
  | find key => exact iff_of_true ⟨h.find_right key, h.tableRight⟩ trivial
  | remove key =>
    obtain ⟨hright, chains', hafter⟩ := h.remove key
    exact iff_of_true ⟨hright, hafter.tableRight⟩ trivial
  | getFirst => exact iff_of_true ⟨h.getFirst_right, h.tableRight⟩ trivial
  | write e key => exact iff_of_true ⟨trivial, (h.write hkept).tableRight⟩ trivial

theorem Chained.step (h : Chained t chains) {call : HashCall α κ} (hkept : HashKept t call)
    (hsafe : InsertSafe t call) : ∃ chains', Chained (t.step call) chains' := by
  cases call with
  | insert key => exact h.after_insert hsafe
  | find key => exact ⟨chains, h⟩
  | remove key => exact (h.remove key).2
  | getFirst => exact ⟨chains, h⟩
  | write e key => exact ⟨chains, h.write hkept⟩

/-- SOURCE: hash_list.h:211-233 -/
theorem getMaxPrimeNum_pos {num : ℕ} (hnum : 0 < num) : 0 < getMaxPrimeNum num := by
  rw [getMaxPrimeNum]
  -- the loop ends with 1 at the latest
  have hone : 1 ∈ (List.range num).map (num - ·) := List.mem_map.mpr ⟨num - 1, List.mem_range.mpr (by omega), by omega⟩
  have hprime : (List.range' 2 (num.sqrt - 1)).all (fun k => 1 % k ≠ 0) = true := by
    rw [List.all_eq_true]
    intro k hk
    have hge := (List.mem_range'_1.mp hk).1
    rw [Nat.mod_eq_of_lt (by omega)]
    rfl
  cases hfind : ((List.range num).map (num - ·)).find? fun i =>
      (List.range' 2 (num.sqrt - 1)).all fun k => i % k ≠ 0 with
  | none => exact absurd hprime (List.find?_eq_none.mp hfind 1 hone)
  | some i =>
    obtain ⟨k, hk, hi⟩ := List.mem_map.mp (List.mem_of_find?_eq_some hfind)
    have hlt := List.mem_range.mp hk
    rw [Option.getD_some]
    omega

omit [DecidableEq α] in
/-- A new table has empty chains. -/
theorem Chained.init (max : ℤ) (calloc : Bool) (keys : α → κ) :
    Chained (ChainedHash.init max calloc keys) fun _ => [] := by
  constructor
  · refine getMaxPrimeNum_pos ?_
    split
    · omega
    · omega
  · intro i _
    cases calloc <;> rfl
  · exact fun _ _ => List.nodup_nil
  · exact fun i _ e he => absurd he List.not_mem_nil
  · exact fun i _ e he => absurd he List.not_mem_nil
  · exact fun e _ => ⟨rfl, rfl⟩
  · simp [ChainedHash.init]
  · exact show (0 : ℤ) < 2 ^ 31 by omega

/-- A table is right from the beginning on, if and only if no entry is inserted again whose link and hash value are
both zero, and the entries can be counted.
SOURCE: hash_list.h:36-206 -/
theorem chained_hash_right_iff {max : ℤ} {calloc : Bool} {keys : α → κ} {calls : List (HashCall α κ)}
    (hkept : AllSteps ChainedHash.step HashKept (ChainedHash.init max calloc keys) calls) :
    (HashTableRight (ChainedHash.init max calloc keys) ∧
        AllSteps ChainedHash.step HashRight (ChainedHash.init max calloc keys) calls) ↔
      AllSteps ChainedHash.step InsertSafe (ChainedHash.init max calloc keys) calls := by
  have hinit := Chained.init max calloc keys
  rw [and_iff_right hinit.tableRight]
  refine allSteps_issued_iff (I := fun t => ∃ chains, Chained t chains) ?_ ?_ ⟨_, hinit⟩ hkept
  · rintro t call ⟨chains, h⟩ hkept hsafe
    exact h.step hkept hsafe
  · rintro t call ⟨chains, h⟩ hkept
    exact h.right_iff hkept

/-! ## A key whose hash value is 0 -/

/-- A destination to which connections are kept, as its key.
SOURCE: mt_connection.h:236-253 -/
instance : HashFields TcpKeepKey where
  hashValue := HashKey.hashValue
  hashCmp := HashKey.hashCmp
  hashValue_eq {item key} h := by
    simp only [HashKey.hashCmp] at h
    split at h
    · rename_i hne
      have hzero := BitVec.toInt_inj.mp (h.trans BitVec.toInt_zero.symm)
      exact absurd ((BitVec.sub_eq_iff_eq_add.mp hzero).trans (BitVec.zero_add _)) hne
    · rename_i haddr
      split at h
      · rename_i hne
        exact absurd (BitVec.eq_of_toNat_eq (by omega)) hne
      · rename_i hport
        simp only [HashKey.hashValue, not_not.mp haddr, not_not.mp hport]

/-- Port 20480, that is 0x50 in the order of the net. -/
def keepKey (addr_ipv4 : BitVec 32) : TcpKeepKey := ⟨0, addr_ipv4, 0x50⟩

/-- An entry is inserted twice; its hash value is not 0. -/
theorem inserted_twice :
    AllSteps ChainedHash.step HashRight (ChainedHash.init 10000 true fun _ : ℕ => keepKey 1)
      [.insert (some 0), .insert (some 0)] := by
  have hkept : AllSteps ChainedHash.step HashKept (ChainedHash.init 10000 true fun _ : ℕ => keepKey 1)
      [.insert (some 0), .insert (some 0)] := ⟨trivial, trivial, trivial⟩
  refine ((chained_hash_right_iff hkept).mpr ⟨?_, ⟨fun _ => .inl (by decide), fun _ _ => by decide⟩, trivial⟩).2
  refine ⟨fun hin => ?_, fun _ _ => by decide⟩
  obtain ⟨i, -, hmem⟩ := (Chained.init _ _ _).present_iff.mp hin
  exact absurd hmem List.not_mem_nil

/-- The hash value of 80.0.80.0 with this port is 0: the second insertion is successful. -/
theorem zero_hash_inserted_twice :
    ¬ ∀ (max : ℤ) (calloc : Bool) (keys : ℕ → TcpKeepKey) (calls : List (HashCall ℕ TcpKeepKey)),
      AllSteps ChainedHash.step HashKept (ChainedHash.init max calloc keys) calls →
      HashTableRight (ChainedHash.init max calloc keys) ∧
        AllSteps ChainedHash.step HashRight (ChainedHash.init max calloc keys) calls := by
  intro h
  obtain ⟨-, ⟨hfirst, -⟩, ⟨hsecond, -⟩, -⟩ := h 10000 true (fun _ => keepKey 0x500050)
    [.insert (some 0), .insert (some 0)] ⟨trivial, trivial, trivial⟩
  have hin := ((hfirst 0 rfl).2 (fun hin => ?_) rfl).2 0 |>.mpr (.inl rfl)
  · exact absurd (congrArg Prod.snd ((hsecond 0 rfl).1 hin)) (by decide)
  · obtain ⟨i, -, hmem⟩ := (Chained.init _ _ _).present_iff.mp hin
    exact absurd hmem List.not_mem_nil

end FStack.Analysis
