import FStack.Model.RwCache
import Mathlib.Data.List.Perm.Basic
import Mathlib.Data.List.Range

/-!
# The buffers of a cache and the bytes in them

What the loops of the cache do to the bytes (`flat`, the data regions one after the other) and to the
buffers.  For the latter, `Accounts` says that the buffers outside the pool and those in its free list
are together all that `malloc` has given, each once; taking one from the pool and giving one back move
it from one side to the other.
-/

set_option autoImplicit false

namespace FStack.Analysis

open FStack.Model FStack.Model.TRWCache

variable {pool pool' : TSkBuffMng} {list bufs : List TSkBuffer} {item : TSkBuffer} {bytes : List UInt8}
variable {b : TSkBuffer} {size : ℕ} {mallocs mallocs' : List Bool} {cache : TRWCache}

/-- The bytes in the data regions of a list of buffers. -/
def flat (list : List TSkBuffer) : List UInt8 := list.flatMap TSkBuffer.data

@[simp] theorem flat_nil : flat [] = [] := rfl

@[simp] theorem flat_cons (b : TSkBuffer) (list : List TSkBuffer) : flat (b :: list) = b.data ++ flat list :=
  rfl

@[simp] theorem flat_append (l₁ l₂ : List TSkBuffer) : flat (l₁ ++ l₂) = flat l₁ ++ flat l₂ :=
  List.flatMap_append

def ids (list : List TSkBuffer) : List ℕ := list.map TSkBuffer.id

@[simp] theorem ids_nil : ids [] = [] := rfl

@[simp] theorem ids_cons (b : TSkBuffer) (list : List TSkBuffer) : ids (b :: list) = b.id :: ids list := rfl

@[simp] theorem ids_append (l₁ l₂ : List TSkBuffer) : ids (l₁ ++ l₂) = ids l₁ ++ ids l₂ := List.map_append

/-- A buffer whose data region is in its memory, with sizes that an `int32_t` can hold. -/
structure Sized (b : TSkBuffer) : Prop where
  inside : b.offset + b.data.length ≤ b.size
  small : b.size < 2 ^ 31

theorem Sized.length_lt (h : Sized b) : b.data.length < 2 ^ 31 := by
  have hin := h.inside
  have hsmall := h.small
  omega

theorem Sized.skip (h : Sized b) {n : ℕ} (hn : n ≤ b.data.length) : Sized (b.skip n) := by
  have hin := h.inside
  refine ⟨?_, h.small⟩
  simp only [TSkBuffer.skip, List.length_drop]
  omega

theorem Sized.push (h : Sized b) (hroom : bytes.length ≤ b.remain) :
    Sized (b.push bytes) := by
  have hin := h.inside
  unfold TSkBuffer.remain at hroom
  refine ⟨?_, h.small⟩
  simp only [TSkBuffer.push, List.length_append]
  omega

theorem Sized.remain_lt (h : Sized b) : b.remain < 2 ^ 31 := by
  have hsmall := h.small
  unfold TSkBuffer.remain
  omega

/-! ## The pool -/

/-- The free list: its buffers are empty, and begin at their head. -/
structure PoolReady (pool : TSkBuffMng) : Prop where
  small : pool.size < 2 ^ 31
  empty : ∀ b ∈ pool.free_list, b.offset = 0 ∧ b.data = []
  sized : ∀ b ∈ pool.free_list, Sized b

/-- The buffers outside the pool and those in it are all there are, and none is there twice. -/
def Accounts (bufs : List TSkBuffer) (pool : TSkBuffMng) : Prop :=
  (ids bufs ++ ids pool.free_list).Perm (List.range pool.made)

theorem Accounts.of_perm {bufs' : List TSkBuffer} (h : Accounts bufs pool)
    (hperm : (ids bufs').Perm (ids bufs)) : Accounts bufs' pool :=
  (hperm.append_right _).trans h

theorem Accounts.length_le (h : Accounts bufs pool) : bufs.length ≤ pool.made := by
  have hlen := h.length_eq
  simp only [ids, List.length_append, List.length_map, List.length_range] at hlen
  omega

/-- INTERNAL: a buffer from `new_sk_buffer`. -/
theorem newSkBuffer_some (heq : pool.newSkBuffer size mallocs = (some item, pool', mallocs')) :
    item = { id := pool.made, size := size, offset := 0, data := [] } ∧
      pool' = { pool with made := pool.made + 1 } ∧ mallocs = true :: mallocs' := by
  unfold TSkBuffMng.newSkBuffer at heq
  split at heq
  · simp only [Prod.mk.injEq, Option.some.injEq] at heq
    obtain ⟨rfl, rfl, rfl⟩ := heq
    exact ⟨rfl, rfl, rfl⟩
  · simp at heq

theorem newSkBuffer_none (heq : pool.newSkBuffer size mallocs = (none, pool', mallocs')) : pool' = pool := by
  unfold TSkBuffMng.newSkBuffer at heq
  split at heq
  · simp at heq
  · simp only [Prod.mk.injEq] at heq
    exact heq.2.1.symm

theorem Accounts.newSkBuffer (h : Accounts bufs pool)
    (heq : pool.newSkBuffer size mallocs = (some item, pool', mallocs')) :
    Accounts (item :: bufs) pool' := by
  obtain ⟨rfl, rfl, -⟩ := newSkBuffer_some heq
  unfold Accounts
  rw [List.range_succ, ids_cons, List.cons_append]
  exact ((h.cons _).trans (List.perm_append_singleton _ _).symm)

/-- **A buffer from the pool** is empty, and from then on outside the pool.  It uses up a
buffer of the free list or an answer of `malloc`. -/
theorem allocSkBuffer_some (hp : PoolReady pool) (h : Accounts bufs pool)
    (heq : pool.allocSkBuffer mallocs = (some item, pool', mallocs')) :
    (item.offset = 0 ∧ item.data = [] ∧ Sized item) ∧ PoolReady pool' ∧ Accounts (item :: bufs) pool' ∧
      pool'.free_list.length + mallocs'.length < pool.free_list.length + mallocs.length := by
  unfold TSkBuffMng.allocSkBuffer at heq
  split at heq
  · rename_i b rest hfree
    simp only [Prod.mk.injEq, Option.some.injEq] at heq
    obtain ⟨rfl, rfl, rfl⟩ := heq
    have hb : b ∈ pool.free_list := by simp [hfree]
    have hrest : ∀ c ∈ rest, c ∈ pool.free_list := by
      intro c hc
      rw [hfree]
      exact List.mem_cons_of_mem b hc
    refine ⟨⟨(hp.empty b hb).1, (hp.empty b hb).2, hp.sized b hb⟩, ?_, ?_, ?_⟩
    · exact ⟨hp.small, fun c hc => hp.empty c (hrest c hc), fun c hc => hp.sized c (hrest c hc)⟩
    · unfold Accounts at h ⊢
      rw [hfree, ids_cons] at h
      exact List.perm_middle.symm.trans h
    · rw [hfree, List.length_cons]
      exact Nat.add_lt_add_right (Nat.lt_succ_self _) _
  · rename_i hfree
    have hacc := h.newSkBuffer heq
    obtain ⟨rfl, rfl, rfl⟩ := newSkBuffer_some heq
    refine ⟨⟨rfl, rfl, by simp, hp.small⟩, ⟨hp.small, hp.empty, hp.sized⟩, hacc, ?_⟩
    simp

theorem allocSkBuffer_none (heq : pool.allocSkBuffer mallocs = (none, pool', mallocs')) : pool' = pool := by
  unfold TSkBuffMng.allocSkBuffer at heq
  split at heq
  · simp at heq
  · exact newSkBuffer_none heq

/-- INTERNAL: a buffer that is given to the pool. -/
theorem freeSkBuffer_ready (hp : PoolReady pool) (hsized : Sized item) :
    PoolReady (pool.freeSkBuffer item) := by
  refine ⟨hp.small, ?_, ?_⟩
  · intro b hb
    rcases List.mem_append.mp hb with hb | hb
    · exact hp.empty b hb
    · rw [List.mem_singleton] at hb
      rw [hb]
      exact ⟨rfl, rfl⟩
  · intro b hb
    rcases List.mem_append.mp hb with hb | hb
    · exact hp.sized b hb
    · rw [List.mem_singleton] at hb
      rw [hb]
      exact ⟨Nat.zero_le _, hsized.small⟩

theorem Accounts.freeSkBuffer (h : Accounts (item :: bufs) pool) :
    Accounts bufs (pool.freeSkBuffer item) := by
  unfold Accounts at h ⊢
  have hfree : ids (pool.freeSkBuffer item).free_list = ids pool.free_list ++ [item.id] := by
    simp [TSkBuffMng.freeSkBuffer, TSkBuffer.reset]
  rw [hfree, ← List.append_assoc]
  exact (List.perm_append_singleton _ _).trans h

/-- INTERNAL: the buffers of a list that is given up are in the pool. -/
theorem freeAll (hp : PoolReady pool) (hsized : ∀ b ∈ list, Sized b) (h : Accounts (list ++ bufs) pool) :
    PoolReady (list.foldl TSkBuffMng.freeSkBuffer pool) ∧
      Accounts bufs (list.foldl TSkBuffMng.freeSkBuffer pool) := by
  induction list generalizing pool with
  | nil => exact ⟨hp, h⟩
  | cons b list ih =>
    rw [List.forall_mem_cons] at hsized
    exact ih (freeSkBuffer_ready hp hsized.1) hsized.2 h.freeSkBuffer

/-! ## The loops -/

theorem updateLast_nil (f : TSkBuffer → TSkBuffer) (len count : ℕ) :
    (⟨[], len, count⟩ : TRWCache).updateLast f = ⟨[], len, count⟩ := rfl

theorem updateLast_concat (f : TSkBuffer → TSkBuffer) (front : List TSkBuffer) (last : TSkBuffer)
    (len count : ℕ) :
    (⟨front ++ [last], len, count⟩ : TRWCache).updateLast f = ⟨front ++ [f last], len, count⟩ := by
  simp [updateLast]

/-- What `cache_copy_out` leaves of a list, when it takes up to `left` bytes from it. -/
structure CopiedOut (list : List TSkBuffer) (pool : TSkBuffMng) (left : ℕ)
    (r : List TSkBuffer × ℕ × TSkBuffMng × List UInt8 × ℕ) : Prop where
  out : r.2.2.2.1 = (flat list).take left
  rest : flat r.1 = (flat list).drop left
  left_eq : r.2.2.2.2 = left - (flat list).length
  count : r.2.1 = r.1.length
  sized : ∀ b ∈ r.1, Sized b
  ready : PoolReady r.2.2.1
  accounts : ∀ bufs, Accounts (list ++ bufs) pool → Accounts (r.1 ++ bufs) r.2.2.1
  made : r.2.2.1.made = pool.made

/-- **The loop of `cache_copy_out`.**  Every buffer but the last one that is looked at is taken
out whole, so the bytes that are taken are the first ones.
SOURCE: mt_cache.cpp:201-228 -/
theorem copyOutLoop_copiedOut (hp : PoolReady pool) (hsized : ∀ b ∈ list, Sized b) (left : ℕ) :
    CopiedOut list pool left (copyOutLoop list list.length pool left) := by
  induction list generalizing pool left with
  | nil =>
    refine ⟨List.take_nil.symm, List.drop_nil.symm, (Nat.sub_zero left).symm, rfl, ?_, hp, fun _ h => h, rfl⟩
    simp [copyOutLoop]
  | cons buff rest ih =>
    rw [List.forall_mem_cons] at hsized
    unfold copyOutLoop
    dsimp only
    by_cases hcut : left < buff.data.length
    · rw [if_pos hcut]
      have hpos : 0 < (buff.skip left).data.length := by
        simp only [TSkBuffer.skip, List.length_drop]
        omega
      rw [if_pos hpos]
      refine ⟨?_, ?_, ?_, rfl, ?_, hp, fun bufs h => h, rfl⟩
      · rw [flat_cons, List.take_append_of_le_length hcut.le]
      · rw [flat_cons, flat_cons, List.drop_append_of_le_length hcut.le]
        rfl
      · rw [flat_cons, List.length_append]
        dsimp only
        omega
      · rw [List.forall_mem_cons]
        exact ⟨hsized.1.skip hcut.le, hsized.2⟩
    · rw [if_neg hcut]
      rw [not_lt] at hcut
      have hnil : (buff.skip buff.data.length).data = [] := List.drop_length
      have hready := freeSkBuffer_ready hp (hsized.1.skip le_rfl)
      have hfree : ∀ bufs, Accounts (buff :: rest ++ bufs) pool →
          Accounts (rest ++ bufs) (pool.freeSkBuffer (buff.skip buff.data.length)) := fun bufs h =>
        Accounts.freeSkBuffer (h.of_perm (List.Perm.refl _))
      have hcount : (if 0 < (buff :: rest).length then (buff :: rest).length - 1 else (buff :: rest).length) =
          rest.length := by simp
      rw [if_neg (by simp [hnil]), hcount, List.take_length]
      by_cases hleft : left - buff.data.length = 0
      · rw [if_pos hleft]
        have heq : left = buff.data.length := by omega
        refine ⟨?_, ?_, ?_, rfl, hsized.2, hready, hfree, rfl⟩
        · rw [flat_cons, heq, List.take_left]
        · rw [flat_cons, heq, List.drop_left]
        · rw [flat_cons, List.length_append]
          dsimp only
          omega
      · rw [if_neg hleft]
        have h := ih hready hsized.2 (left - buff.data.length)
        refine ⟨?_, ?_, ?_, h.count, h.sized, h.ready, ?_, h.made⟩
        · rw [flat_cons, List.take_append, List.take_of_length_le hcut]
          exact congrArg _ h.out
        · rw [flat_cons, List.drop_append, List.drop_of_length_le hcut, List.nil_append]
          exact h.rest
        · rw [flat_cons, List.length_append, ← Nat.sub_sub]
          exact h.left_eq
        · exact fun bufs hb => h.accounts bufs (hfree bufs hb)

/-- A buffer of the pool, with other data, at the end of a list. -/
theorem Accounts.append_last {f : TSkBuffer → TSkBuffer} (h : Accounts (item :: (list ++ bufs)) pool)
    (hf : (f item).id = item.id) : Accounts (list ++ [f item] ++ bufs) pool := by
  apply h.of_perm
  simp only [ids_append, ids_cons, hf, List.append_assoc, List.singleton_append]
  exact List.perm_middle

theorem forall_sized_append (h : ∀ b ∈ list, Sized b) (hitem : Sized item) :
    ∀ b ∈ list ++ [item], Sized b := by
  intro b hb
  rcases List.mem_append.mp hb with hb | hb
  · exact h b hb
  · rw [List.mem_singleton] at hb
    rw [hb]
    exact hitem

/-- A list of buffers outside the pool whose number is counted in 32 bits. -/
structure Listed (cache : TRWCache) (pool : TSkBuffMng) (bufs : List TSkBuffer) : Prop where
  count : cache.count = cache.list.length % 2 ^ 32
  sized : ∀ b ∈ cache.list, Sized b
  ready : PoolReady pool
  accounts : Accounts (cache.list ++ bufs) pool

/-- **The loop of `cache_append_data`** puts all bytes into buffers from the pool, or gives back
those that it has taken.
SOURCE: mt_cache.cpp:317-338 -/
theorem keepLoop_spec {turns : ℕ} (bytes : List UInt8) {keep : TRWCache}
    (hturns : pool.free_list.length + mallocs.length < turns) (hk : Listed keep pool bufs) :
    (∃ pool', keepLoop turns pool mallocs bytes keep = (none, pool') ∧ PoolReady pool' ∧
      Accounts bufs pool') ∨
    ∃ keep' pool', keepLoop turns pool mallocs bytes keep = (some keep', pool') ∧
      flat keep'.list = flat keep.list ++ bytes ∧ Listed keep' pool' bufs := by
  induction turns generalizing pool mallocs bytes keep with
  | zero => omega
  | succ turns ih =>
    unfold keepLoop
    rcases hitem : pool.allocSkBuffer mallocs with ⟨_ | item, pool₁, mallocs₁⟩
    · obtain rfl := allocSkBuffer_none hitem
      exact Or.inl ⟨_, rfl, freeAll hk.ready hk.sized hk.accounts⟩
    · obtain ⟨⟨hoff, hdata, hsized⟩, hready, hacc, hless⟩ :=
        allocSkBuffer_some hk.ready hk.accounts hitem
      have hcount : (keep.count + 1) % 2 ^ 32 = (keep.list.length + 1) % 2 ^ 32 := by
        rw [hk.count, Nat.mod_add_mod]
      -- what the list is after one buffer more, with `chunk` in it
      have hnext : ∀ chunk : List UInt8, chunk.length ≤ item.size →
          Listed ⟨keep.list ++ [{ item with data := chunk }], (keep.len + item.data.length) % 2 ^ 32,
            (keep.count + 1) % 2 ^ 32⟩ pool₁ bufs := by
        intro chunk hchunk
        refine ⟨?_, forall_sized_append hk.sized ⟨?_, hsized.small⟩, hready,
          hacc.append_last (f := fun item => { item with data := chunk }) rfl⟩
        · rw [hcount, List.length_append, List.length_singleton]
        · rw [hoff, Nat.zero_add]
          exact hchunk
      have hupdate := fun chunk : List UInt8 =>
        updateLast_concat (fun item => { item with data := chunk }) keep.list item
          ((keep.len + item.data.length) % 2 ^ 32) ((keep.count + 1) % 2 ^ 32)
      dsimp only [cacheAppendBuffer]
      split
      · rename_i hfits
        refine Or.inr ⟨_, _, rfl, ?_, ?_⟩
        · rw [hupdate, flat_append, flat_cons, flat_nil, List.append_nil]
        · rw [hupdate]
          exact hnext bytes hfits
      · rename_i hlong
        rw [hupdate]
        have hfuel : pool₁.free_list.length + mallocs₁.length < turns := by omega
        rcases ih (bytes.drop item.size) hfuel
            (hnext (bytes.take item.size) (List.length_take_le _ _)) with
          hnone | ⟨keep', pool', heq, hflat, hkept⟩
        · exact Or.inl hnone
        · refine Or.inr ⟨keep', pool', heq, ?_, hkept⟩
          rw [hflat, flat_append, flat_cons, flat_nil, List.append_nil, List.append_assoc,
            List.take_append_drop]

/-- INTERNAL: what `read_cache_begin` copies.
SOURCE: mt_cache.cpp:655-683 -/
theorem readBeginLoop_eq (list : List TSkBuffer) (start len : ℕ) :
    readBeginLoop list start len = ((flat list).drop start).take len := by
  induction list generalizing start len with
  | nil => simp [readBeginLoop]
  | cons item rest ih =>
    unfold readBeginLoop
    dsimp only
    by_cases hskip : item.data.length < start
    · rw [if_pos hskip, if_pos (by simp), ih, flat_cons, List.drop_append,
        List.drop_of_length_le hskip.le, List.nil_append]
    · rw [if_neg hskip, Nat.sub_self]
      rw [not_lt] at hskip
      have hdrop : (flat (item :: rest)).drop start = item.data.drop start ++ flat rest := by
        rw [flat_cons, List.drop_append_of_le_length hskip]
      by_cases hnil : (item.data.drop start).length = 0
      · rw [if_pos hnil, ih, hdrop, List.length_eq_zero_iff.mp hnil, List.nil_append, List.drop_zero]
      · rw [if_neg hnil, hdrop]
        by_cases hlen : (item.data.drop start).length < len
        · rw [if_pos hlen, if_neg (by omega), ih, List.drop_zero, List.take_append, List.take_length,
            List.take_of_length_le hlen.le]
        · rw [if_neg hlen, if_pos (Nat.sub_self len), List.append_nil,
            List.take_append_of_le_length (by omega)]

theorem int32_natCast {n : ℕ} (h : n < 2 ^ 31) : int32 n = n := by
  unfold int32
  rw [Int.bmod_eq_of_le] <;> omega

/-- **The loop of `cache_tcp_send`.**  It goes on to the next buffer only when the last one was
sent whole, so what the socket takes is what the queue begins with.
SOURCE: mt_cache.cpp:467-482 -/
theorem sendLoop_spec (results : List SendResult) (hsized : ∀ b ∈ list, Sized b) (total : ℕ) :
    (sendLoop list results (int32 total)).1 <+: flat list ∧
      (sendLoop list results (int32 total)).2.1 =
        int32 ((total + (sendLoop list results (int32 total)).1.length : ℕ) : ℤ) := by
  induction list generalizing results total with
  | nil => exact ⟨List.prefix_rfl, by simp [sendLoop]⟩
  | cons item rest ih =>
    rw [List.forall_mem_cons] at hsized
    unfold sendLoop
    rcases hresult : results.head? with _ | ⟨_ | sent, again⟩
    · exact ⟨List.nil_prefix, by simp⟩
    · exact ⟨List.nil_prefix, by simp⟩
    · have hlen := hsized.1.length_lt
      have hret : int32 ((item.data.take sent).length : ℤ) = (item.data.take sent).length := by
        apply int32_natCast
        exact (List.length_take_le' _ _).trans_lt hlen
      have hsum : int32 (int32 (total : ℤ) + ((item.data.take sent).length : ℤ)) =
          int32 ((total + (item.data.take sent).length : ℕ) : ℤ) := by
        unfold int32
        rw [Int.bmod_add_bmod, Nat.cast_add]
      dsimp only
      rw [hret, int32_natCast hlen, if_neg (by omega), hsum]
      split
      · refine ⟨?_, by simp⟩
        exact (List.take_prefix _ _).trans (List.prefix_append _ _)
      · rename_i hwhole
        rw [Nat.cast_lt, not_lt, List.length_take, Nat.le_min] at hwhole
        have htake : item.data.take sent = item.data := List.take_of_length_le hwhole.1
        rw [htake]
        obtain ⟨hbegin, htotal⟩ := ih results.tail hsized.2 (total + item.data.length)
        refine ⟨?_, ?_⟩
        · rw [flat_cons]
          exact (List.prefix_append_right_inj _).mpr hbegin
        · rw [List.length_append, ← Nat.add_assoc]
          exact htotal

/-- A cache whose length is counted in 32 bits too. -/
structure Counted (cache : TRWCache) (pool : TSkBuffMng) (bufs : List TSkBuffer) : Prop
    extends Listed cache pool bufs where
  len : cache.len = (flat cache.list).length % 2 ^ 32

theorem lastRemain_concat (front : List TSkBuffer) (last : TSkBuffer) (len count : ℕ) :
    (⟨front ++ [last], len, count⟩ : TRWCache).lastRemain = last.remain := by
  simp [lastRemain]

theorem Listed.lastRemain_lt (h : Listed cache pool bufs) :
    cache.lastRemain < 2 ^ 31 := by
  obtain ⟨list, len, count⟩ := cache
  rcases List.eq_nil_or_concat' list with rfl | ⟨front, last, rfl⟩
  · exact Nat.two_pow_pos 31
  · rw [lastRemain_concat]
    exact (h.sized last (by simp)).remain_lt

/-- Bytes that fit into the last buffer. -/
theorem Counted.fill (h : Counted cache pool bufs) (hroom : bytes.length ≤ cache.lastRemain) :
    flat (cache.updateLast (·.push bytes)).list = flat cache.list ++ bytes ∧
      Counted { cache.updateLast (·.push bytes) with
        len := ((cache.updateLast (·.push bytes)).len + bytes.length) % 2 ^ 32 } pool bufs := by
  obtain ⟨list, len, count⟩ := cache
  rcases List.eq_nil_or_concat' list with rfl | ⟨front, last, rfl⟩
  · have hnil : bytes = [] := List.length_eq_zero_iff.mp (Nat.le_zero.mp hroom)
    subst hnil
    rw [updateLast_nil]
    refine ⟨rfl, ⟨h.count, h.sized, h.ready, h.accounts⟩, ?_⟩
    have hlen : len = 0 % 2 ^ 32 := h.len
    rw [hlen]
    rfl
  · rw [lastRemain_concat] at hroom
    rw [updateLast_concat]
    have hflat : flat (front ++ [last.push bytes]) = flat (front ++ [last]) ++ bytes := by
      simp [TSkBuffer.push]
    have hfront : ∀ b ∈ front, Sized b := fun b hb => h.sized b (List.mem_append_left _ hb)
    have hlast : Sized last := h.sized last (by simp)
    refine ⟨hflat, ⟨?_, ?_, h.ready, ?_⟩, ?_⟩
    · have hcount := h.count
      simp only [List.length_append, List.length_singleton] at hcount ⊢
      exact hcount
    · exact forall_sized_append hfront (hlast.push hroom)
    · apply h.accounts.of_perm
      simp [TSkBuffer.push]
    · have hlen : len = (flat (front ++ [last])).length % 2 ^ 32 := h.len
      rw [hflat, hlen, List.length_append, Nat.mod_add_mod]

/-- A buffer from outside, at the end. -/
theorem Counted.cacheAppendBuffer (h : Counted cache pool bufs) {bufs' : List TSkBuffer}
    (hready : PoolReady pool') (hsized : Sized item) (hacc : Accounts (cache.list ++ [item] ++ bufs') pool') :
    Counted (cache.cacheAppendBuffer item) pool' bufs' := by
  refine ⟨⟨?_, ?_, hready, hacc⟩, ?_⟩
  · simp only [TRWCache.cacheAppendBuffer, List.length_append, List.length_singleton]
    rw [h.count, Nat.mod_add_mod]
  · exact forall_sized_append h.sized hsized
  · simp only [TRWCache.cacheAppendBuffer, flat_append, flat_cons, flat_nil, List.append_nil,
      List.length_append]
    rw [h.len, Nat.mod_add_mod]

/-- INTERNAL: the first half of a turn of `cache_tcp_recv` adds no bytes. -/
theorem recvBuffer_cases (h : Counted cache pool bufs) (mallocs : List Bool) :
    (∃ mallocs', cache.recvBuffer pool mallocs = (none, pool, mallocs')) ∨
    ∃ cache' pool' mallocs', cache.recvBuffer pool mallocs = (some cache', pool', mallocs') ∧
      flat cache'.list = flat cache.list ∧ Counted cache' pool' bufs := by
  unfold recvBuffer
  split
  · rcases hitem : pool.allocSkBuffer mallocs with ⟨_ | item, pool₁, mallocs₁⟩
    · obtain rfl := allocSkBuffer_none hitem
      exact Or.inl ⟨mallocs₁, rfl⟩
    · obtain ⟨⟨-, hdata, hsized⟩, hready, hacc, -⟩ := allocSkBuffer_some h.ready h.accounts hitem
      refine Or.inr ⟨_, _, _, rfl, ?_, ?_⟩
      · simp [TRWCache.cacheAppendBuffer, hdata]
      · exact h.cacheAppendBuffer hready hsized (hacc.append_last (f := id) rfl)
  · exact Or.inr ⟨cache, pool, mallocs, rfl, rfl, h⟩

/-- **The loop of `cache_tcp_recv`** appends what the socket gives.
SOURCE: mt_cache.cpp:402-447 -/
theorem recvLoop_spec (turns : ℕ) (results : List RecvResult) (h : Counted cache pool bufs)
    (mallocs : List Bool) (total : ℤ) :
    flat (recvLoop turns results cache pool mallocs total).1.list =
        flat cache.list ++ (recvLoop turns results cache pool mallocs total).2.2.2 ∧
      Counted (recvLoop turns results cache pool mallocs total).1
        (recvLoop turns results cache pool mallocs total).2.1 bufs := by
  induction turns generalizing results cache pool mallocs total with
  | zero => exact ⟨(List.append_nil _).symm, h⟩
  | succ turns ih =>
    unfold recvLoop
    rcases recvBuffer_cases h mallocs with ⟨mallocs₁, heq⟩ | ⟨cache₁, pool₁, mallocs₁, heq, hsame, h₁⟩
    · rw [heq]
      exact ⟨(List.append_nil _).symm, h⟩
    · rw [heq, ← hsame]
      rcases hresult : results.head? with _ | ⟨_ | bytes, again⟩
      · exact ⟨(List.append_nil _).symm, h₁⟩
      · cases again
        · exact ⟨(List.append_nil _).symm, h₁⟩
        · exact ⟨(List.append_nil _).symm, h₁⟩
      · have hroom : (bytes.take cache₁.lastRemain).length ≤ cache₁.lastRemain :=
          List.length_take_le _ _
        have hlen := int32_natCast (hroom.trans_lt h₁.lastRemain_lt)
        obtain ⟨hfilled, hcounted⟩ := h₁.fill hroom
        dsimp only
        rw [hlen]
        split
        · rename_i hzero
          have hnil : bytes.take cache₁.lastRemain = [] := by
            rw [← List.length_eq_zero_iff]
            exact_mod_cast hzero
          rw [hnil]
          exact ⟨(List.append_nil _).symm, h₁⟩
        · rw [if_neg (by omega)]
          split
          · exact ⟨hfilled, hcounted⟩
          · obtain ⟨hflat, hc⟩ := ih results.tail hcounted mallocs₁
              (int32 (total + (bytes.take cache₁.lastRemain).length))
            refine ⟨?_, hc⟩
            rw [← List.append_assoc, ← hfilled]
            exact hflat

end FStack.Analysis
