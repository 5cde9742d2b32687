import FStack.Analysis.CacheBuffers
import FStack.Prelude.Monitored

/-!
# The cache as a queue of bytes

One lemma for each call says what it does to the bytes and to the buffers, with the counters read modulo
2^32 (`Counted`); as long as all bytes and all buffers can be counted in 32 bits, the counters are exact
(`CacheGood`).  The lengths that the calls handle as `int32_t` are exact below 2^31.
-/

set_option autoImplicit false

namespace FStack.Analysis

open FStack.Model FStack.Model.TRWCache FStack.Prelude

variable {s : CacheState} {cache : TRWCache} {pool pool' : TSkBuffMng} {bufs : List TSkBuffer}
variable {size : ℕ} {op : CacheOp} {data : List UInt8}

/-- The bytes that a call puts into the cache. -/
def putIn (s : CacheState) (op : CacheOp) : List UInt8 :=
  match op with
  | .appendData _ data => if (s.call op).2.ret = -2 then [] else data
  | .appendBuffer id => ((s.hands.find? (·.id == id)).map TSkBuffer.data).getD []
  | .tcpRecv _ _ => (s.call op).2.received
  | _ => []

/-- The bytes that a call takes out of the cache. -/
def takenOut (s : CacheState) (op : CacheOp) : List UInt8 :=
  match op with
  | .skipData len => s.content.take len
  | _ => (s.call op).2.out

/-- What a call has to say about itself, beyond the bytes it puts in and takes out. -/
def AnswersRight (s : CacheState) (op : CacheOp) : Prop :=
  match op with
  | .appendData _ data =>
    ((s.call op).2.ret = data.length ∧ (s.step op).content = s.content ++ data) ∨
      ((s.call op).2.ret = -2 ∧ (s.step op).content = s.content)
  | .copyOut len =>
    (s.call op).2.out = s.content.take len ∧ (s.call op).2.ret = (s.content.take len).length
  | .skipFirstBuffer => (s.call op).2.out = (s.cache.list.head?.map TSkBuffer.data).getD []
  | _ => True

/-- The counters, what can be read, and that every buffer is at one place. -/
structure CacheRight (s : CacheState) : Prop where
  len : s.cache.len = s.content.length
  count : s.cache.count = s.cache.list.length
  reads : ∀ start len, s.cache.readCacheBegin start len = (s.content.drop start).take len
  places : (ids s.cache.list ++ ids s.hands ++ ids s.pool.free_list).Perm (List.range s.pool.made)

/-- A call behaves as one of a queue of bytes, and leaves it right. -/
structure CallFifo (s : CacheState) (op : CacheOp) : Prop where
  queue : s.content ++ putIn s op = takenOut s op ++ (s.step op).content
  answers : AnswersRight s op
  right : CacheRight (s.step op)

/-- All bytes and all buffers can be counted in 32 bits after a call. -/
def Fits (s : CacheState) (op : CacheOp) : Prop :=
  (s.step op).content.length < 2 ^ 32 ∧ (s.step op).pool.made < 2 ^ 32

/-- The sizes that a call is given can be handled as `int32_t`. -/
def SmallSizes : CacheOp → Prop
  | .appendData _ data => data.length < 2 ^ 31
  | .newBuffer size _ => size < 2 ^ 31
  | _ => True

/-- A state with exact counters. -/
structure CacheGood (s : CacheState) : Prop where
  counted : Counted s.cache s.pool s.hands
  hands : ∀ b ∈ s.hands, Sized b
  bytes : s.content.length < 2 ^ 32
  made : s.pool.made < 2 ^ 32

theorem CacheGood.len (h : CacheGood s) : s.cache.len = s.content.length :=
  h.counted.len.trans (Nat.mod_eq_of_lt h.bytes)

theorem CacheGood.count (h : CacheGood s) : s.cache.count = s.cache.list.length := by
  rw [h.counted.count]
  apply Nat.mod_eq_of_lt
  have hle := h.counted.accounts.length_le
  rw [List.length_append] at hle
  have hmade := h.made
  omega

/-- INTERNAL: in a state with exact counters all is right. -/
theorem CacheGood.right (h : CacheGood s) : CacheRight s := by
  refine ⟨h.len, h.count, ?_, ?_⟩
  · intro start len
    unfold readCacheBegin
    split
    · rename_i hend
      rw [h.len] at hend
      rw [List.drop_of_length_le hend, List.take_nil]
    · exact readBeginLoop_eq s.cache.list start len
  · have hacc := h.counted.accounts
    unfold Accounts at hacc
    rwa [ids_append] at hacc

theorem cacheGood_init (hsize : size < 2 ^ 31) : CacheGood (CacheState.init size) := by
  refine ⟨⟨⟨rfl, by simp [CacheState.init, rwCacheInit], ⟨hsize, ?_, ?_⟩, ?_⟩, rfl⟩, ?_, ?_, ?_⟩
  · simp [CacheState.init]
  · simp [CacheState.init]
  · exact List.Perm.refl _
  · simp [CacheState.init]
  · exact Nat.two_pow_pos 32
  · exact Nat.two_pow_pos 32

/-! ## Putting in -/

/-- A list of staged buffers, behind the buffers of a cache. -/
theorem Counted.concat {keep : TRWCache} (h : Counted cache pool (keep.list ++ bufs))
    (hk : keep.count = keep.list.length % 2 ^ 32) (hsized : ∀ b ∈ keep.list, Sized b) :
    Counted ⟨cache.list ++ keep.list, (cache.len + (flat keep.list).length) % 2 ^ 32,
      (cache.count + keep.count) % 2 ^ 32⟩ pool bufs := by
  refine ⟨⟨?_, ?_, h.ready, ?_⟩, ?_⟩
  · rw [List.length_append, h.count, hk, ← Nat.add_mod]
  · intro b hb
    rcases List.mem_append.mp hb with hb | hb
    · exact h.sized b hb
    · exact hsized b hb
  · have hacc := h.accounts
    rwa [← List.append_assoc] at hacc
  · rw [flat_append, List.length_append, h.len, Nat.mod_add_mod]

/-- INTERNAL: **`cache_append_data`** appends all bytes, or leaves the cache as it is and returns -2.
SOURCE: mt_cache.cpp:282-350 -/
theorem cacheAppendData_cases (h : Counted cache pool bufs) (mallocs : List Bool) (data : List UInt8) :
    (∃ cache' pool', cache.cacheAppendData pool mallocs data = (cache', pool', int32 data.length) ∧
      flat cache'.list = flat cache.list ++ data ∧ Counted cache' pool' bufs) ∨
    ∃ pool', cache.cacheAppendData pool mallocs data = (cache, pool', -2) ∧ Counted cache pool' bufs := by
  unfold cacheAppendData
  dsimp only
  by_cases hnil : data.length = 0
  · rw [if_pos hnil]
    left
    refine ⟨cache, pool, by rw [hnil]; rfl, ?_, h⟩
    rw [List.length_eq_zero_iff.mp hnil, List.append_nil]
  · rw [if_neg hnil]
    by_cases hroom : data.length ≤ cache.lastRemain
    · rw [if_pos hroom]
      left
      obtain ⟨hflat, hcounted⟩ := h.fill hroom
      exact ⟨_, _, rfl, hflat, hcounted⟩
    · rw [if_neg hroom]
      have hkeep : Listed rwCacheInit pool (cache.list ++ bufs) :=
        ⟨rfl, by simp [rwCacheInit], h.ready, h.accounts⟩
      rcases keepLoop_spec (data.drop cache.lastRemain) (Nat.lt_succ_self _) hkeep with
        ⟨pool', heq, hready, hacc⟩ | ⟨keep, pool', heq, hflat, hlisted⟩
      · right
        rw [heq]
        exact ⟨pool', rfl, ⟨h.count, h.sized, hready, hacc⟩, h.len⟩
      · left
        rw [heq]
        have hmoved : Counted cache pool' (keep.list ++ bufs) := by
          refine ⟨⟨h.count, h.sized, hlisted.ready, hlisted.accounts.of_perm ?_⟩, h.len⟩
          simp only [ids_append, ← List.append_assoc]
          exact List.perm_append_comm.append_right _
        obtain ⟨hfilled, hcounted⟩ := hmoved.fill (List.length_take_le cache.lastRemain data)
        have hkept : flat keep.list = data.drop cache.lastRemain := hflat
        refine ⟨_, _, rfl, ?_, ?_⟩
        · rw [flat_append, hfilled, hkept, List.append_assoc, List.take_append_drop]
        · have hconcat := hcounted.concat hlisted.count hlisted.sized
          have hsum : (data.take cache.lastRemain).length + (data.drop cache.lastRemain).length =
              data.length := by
            rw [← List.length_append, List.take_append_drop]
          rw [hkept] at hconcat
          dsimp only at hconcat
          rw [Nat.mod_add_mod, Nat.add_assoc, hsum] at hconcat
          exact hconcat

/-! ## Taking out -/

/-- INTERNAL: **`cache_copy_out`** takes the first bytes.
SOURCE: mt_cache.cpp:191-241 -/
theorem cacheCopyOut_spec (h : CacheGood s) (len : ℕ) :
    ∃ cache' pool', s.cache.cacheCopyOut s.pool len =
        (cache', pool', s.content.take len, (s.content.take len).length) ∧
      flat cache'.list = s.content.drop len ∧ Counted cache' pool' s.hands := by
  have hloop := copyOutLoop_copiedOut h.counted.ready h.counted.sized len
  rw [← h.count] at hloop
  unfold cacheCopyOut
  generalize copyOutLoop s.cache.list s.cache.count s.pool len = r at hloop ⊢
  obtain ⟨list, count, pool, out, left⟩ := r
  obtain ⟨hout, hrest, hleft, hcount, hsized, hready, hacc, hmade⟩ := hloop
  dsimp only at hout hrest hleft hcount hsized hready hacc hmade ⊢
  have hacc' := hacc s.hands h.counted.accounts
  have hskip : len - left = (s.content.take len).length := by
    rw [List.length_take, hleft]
    exact Nat.sub_sub_eq_min len (flat s.cache.list).length
  have hdrop : (flat list).length = s.content.length - len := by
    rw [hrest, List.length_drop]
    rfl
  refine ⟨_, pool, by rw [hout, hskip]; rfl, hrest, ⟨?_, hsized, hready, hacc'⟩, ?_⟩
  · have hle := hacc'.length_le
    rw [List.length_append, hmade] at hle
    have hlt := h.made
    have hlist : list.length < 2 ^ 32 := by omega
    rw [hcount]
    exact (Nat.mod_eq_of_lt hlist).symm
  · have hbytes := h.bytes
    dsimp only
    rw [hdrop, h.len, List.length_take, Nat.mod_eq_of_lt (by omega)]
    split <;> omega

/-- INTERNAL: **`cache_tcp_send`** takes out what the socket takes.
SOURCE: mt_cache.cpp:452-494 -/
theorem cacheTcpSend_spec (h : CacheGood s) (results : List SendResult) :
    ∃ cache' pool' ret bytes, s.cache.cacheTcpSend s.pool results = (cache', pool', ret, bytes) ∧
      s.content = bytes ++ flat cache'.list ∧ Counted cache' pool' s.hands := by
  unfold cacheTcpSend
  split
  · exact ⟨_, _, _, _, rfl, rfl, h.counted⟩
  · have hloop := sendLoop_spec results h.counted.sized 0
    have hzero : int32 ((0 : ℕ) : ℤ) = 0 := rfl
    rw [hzero] at hloop
    generalize sendLoop s.cache.list results 0 = r at hloop ⊢
    obtain ⟨bytes, total, failed⟩ := r
    obtain ⟨⟨rest, hbegin⟩, htotal⟩ := hloop
    dsimp only at hbegin htotal ⊢
    have hlen : bytes.length < 2 ^ 32 := by
      have hle := congrArg List.length hbegin
      rw [List.length_append] at hle
      have hbytes : (flat s.cache.list).length < 2 ^ 32 := h.bytes
      omega
    have htotal' : (total % 2 ^ 32).toNat = bytes.length := by
      have hmod : int32 (bytes.length : ℤ) % ((2 ^ 32 : ℕ) : ℤ) = (bytes.length : ℤ) % ((2 ^ 32 : ℕ) : ℤ) :=
        Int.bmod_emod
      rw [htotal, Nat.zero_add]
      omega
    obtain ⟨cache', pool', heq, hdrop, hcounted⟩ := cacheCopyOut_spec h bytes.length
    rw [htotal', cacheSkipData, heq]
    refine ⟨_, _, _, _, rfl, ?_, hcounted⟩
    have hcontent : s.content = bytes ++ rest := hbegin.symm
    rw [hdrop, hcontent, List.drop_left]

/-- INTERNAL: `cache_skip_first_buffer`.
SOURCE: mt_cache.cpp:260-280 -/
theorem cacheSkipFirstBuffer_spec (h : CacheGood s) {buff : TSkBuffer} {rest : List TSkBuffer}
    (hlist : s.cache.list = buff :: rest) :
    ∃ cache', s.cache.cacheSkipFirstBuffer = (cache', some buff) ∧ cache'.list = rest ∧
      Counted cache' s.pool (buff :: s.hands) := by
  unfold cacheSkipFirstBuffer
  rw [hlist]
  have hlen : s.cache.len = buff.data.length + (flat rest).length := by
    rw [h.len, CacheState.content, hlist]
    exact List.length_append
  have hcount : s.cache.count = rest.length + 1 := by
    rw [h.count, hlist]
    rfl
  have hsized := h.counted.sized
  have hacc := h.counted.accounts
  rw [hlist] at hsized hacc
  rw [List.forall_mem_cons] at hsized
  have hle := hacc.length_le
  rw [List.length_append, List.length_cons] at hle
  have hmade := h.made
  have hbytes := h.bytes
  rw [← h.len, hlen] at hbytes
  refine ⟨_, rfl, rfl, ⟨?_, hsized.2, h.counted.ready, ?_⟩, ?_⟩
  · dsimp only
    rw [hcount, if_pos (Nat.succ_pos _), Nat.add_sub_cancel, Nat.mod_eq_of_lt (by omega)]
  · apply hacc.of_perm
    simp only [ids_append, ids_cons]
    exact List.perm_middle
  · dsimp only
    rw [hlen, if_pos (Nat.le_add_right _ _), Nat.add_sub_cancel_left, Nat.mod_eq_of_lt (by omega)]

/-! ## Steps and runs -/

/-- What a call does, with the counters modulo 2^32. -/
structure CallDone (s : CacheState) (op : CacheOp) : Prop where
  queue : s.content ++ putIn s op = takenOut s op ++ (s.step op).content
  answers : AnswersRight s op
  counted : Counted (s.step op).cache (s.step op).pool (s.step op).hands
  hands : ∀ b ∈ (s.step op).hands, Sized b

/-- `CallDone`, from the state after the call and the bytes that go in and out. -/
theorem callDone_of {s' : CacheState} {ans : CacheAnswer} {put taken : List UInt8}
    (hcall : s.call op = (s', ans)) (hput : putIn s op = put) (htaken : takenOut s op = taken)
    (hqueue : s.content ++ put = taken ++ s'.content) (hanswers : AnswersRight s op)
    (hcounted : Counted s'.cache s'.pool s'.hands) (hhands : ∀ b ∈ s'.hands, Sized b) :
    CallDone s op := by
  have hstep : s.step op = s' := congrArg Prod.fst hcall
  refine ⟨?_, hanswers, ?_, ?_⟩
  · rw [hput, htaken, hstep]
    exact hqueue
  · rw [hstep]
    exact hcounted
  · rw [hstep]
    exact hhands

theorem call_appendData (h : CacheGood s) (mallocs : List Bool) (hdata : data.length < 2 ^ 31) :
    CallDone s (.appendData mallocs data) := by
  rcases cacheAppendData_cases h.counted mallocs data with
    ⟨cache', pool', heq, hflat, hcounted⟩ | ⟨pool', heq, hcounted⟩
  · have hcall : s.call (.appendData mallocs data) =
        ({ s with cache := cache', pool := pool' }, { ret := data.length }) := by
      simp only [CacheState.call, heq, int32_natCast hdata]
    have hne : ¬ (s.call (.appendData mallocs data)).2.ret = -2 := by
      rw [hcall]
      simp only
      omega
    apply callDone_of hcall (if_neg hne) (congrArg (·.2.out) hcall) _ _ hcounted h.hands
    · exact hflat.symm
    · refine Or.inl ⟨congrArg (·.2.ret) hcall, ?_⟩
      rw [CacheState.step, hcall]
      exact hflat
  · have hcall : s.call (.appendData mallocs data) = ({ s with pool := pool' }, { ret := -2 }) := by
      simp only [CacheState.call, heq]
    have hret : (s.call (.appendData mallocs data)).2.ret = -2 := congrArg (·.2.ret) hcall
    apply callDone_of hcall (if_pos hret) (congrArg (·.2.out) hcall) (List.append_nil _) _ hcounted h.hands
    refine Or.inr ⟨hret, ?_⟩
    rw [CacheState.step, hcall]
    rfl

/-- A buffer that the caller has. -/
theorem find_hands {id : ℕ} {buff : TSkBuffer} (hfind : s.hands.find? (·.id == id) = some buff) :
    buff ∈ s.hands ∧ (ids (buff :: s.hands.erase buff)).Perm (ids s.hands) := by
  have hmem := List.mem_of_find?_eq_some hfind
  exact ⟨hmem, (List.perm_cons_erase hmem).symm.map TSkBuffer.id⟩

/-- A call that changes nothing. -/
theorem callDone_same (h : CacheGood s) (hcall : s.call op = (s, {})) (hput : putIn s op = [])
    (htaken : takenOut s op = []) (hanswers : AnswersRight s op) :
    CallDone s op :=
  callDone_of hcall hput htaken (List.append_nil _) hanswers h.counted h.hands

theorem call_appendBuffer (h : CacheGood s) (id : ℕ) : CallDone s (.appendBuffer id) := by
  cases hfind : s.hands.find? (·.id == id) with
  | none =>
    have hcall : s.call (.appendBuffer id) = (s, {}) := by simp only [CacheState.call, hfind]
    apply callDone_same h hcall _ (congrArg (·.2.out) hcall) trivial
    rw [putIn, hfind]
    rfl
  | some buff =>
    obtain ⟨hmem, hperm⟩ := find_hands hfind
    have hcall : s.call (.appendBuffer id) =
        ({ s with cache := s.cache.cacheAppendBuffer buff, hands := s.hands.erase buff }, {}) := by
      simp only [CacheState.call, hfind]
    have hput : putIn s (.appendBuffer id) = buff.data := by
      rw [putIn, hfind]
      rfl
    apply callDone_of hcall hput (congrArg (·.2.out) hcall) _ trivial
    · apply h.counted.cacheAppendBuffer h.counted.ready (h.hands buff hmem)
      apply h.counted.accounts.of_perm
      simp only [ids_append, List.append_assoc]
      exact hperm.append_left _
    · exact fun b hb => h.hands b (List.mem_of_mem_erase hb)
    · simp [CacheState.content, TRWCache.cacheAppendBuffer]

theorem call_copyOut (h : CacheGood s) (len : ℕ) : CallDone s (.copyOut len) := by
  obtain ⟨cache', pool', heq, hflat, hcounted⟩ := cacheCopyOut_spec h len
  have hcall : s.call (.copyOut len) = ({ s with cache := cache', pool := pool' },
      { ret := (s.content.take len).length, out := s.content.take len }) := by
    simp only [CacheState.call, heq]
  apply callDone_of hcall rfl (congrArg (·.2.out) hcall) _ _ hcounted h.hands
  · change s.content ++ [] = s.content.take len ++ flat cache'.list
    rw [hflat, List.append_nil, List.take_append_drop]
  · exact ⟨congrArg (·.2.out) hcall, congrArg (·.2.ret) hcall⟩

theorem call_skipData (h : CacheGood s) (len : ℕ) : CallDone s (.skipData len) := by
  obtain ⟨cache', pool', heq, hflat, hcounted⟩ := cacheCopyOut_spec h len
  have hcall : s.call (.skipData len) = ({ s with cache := cache', pool := pool' }, {}) := by
    simp only [CacheState.call, cacheSkipData, heq]
  apply callDone_of hcall rfl rfl _ trivial hcounted h.hands
  change s.content ++ [] = s.content.take len ++ flat cache'.list
  rw [hflat, List.append_nil, List.take_append_drop]

theorem call_skipFirstBuffer (h : CacheGood s) : CallDone s .skipFirstBuffer := by
  cases hlist : s.cache.list with
  | nil =>
    have hcall : s.call .skipFirstBuffer = (s, {}) := by
      simp [CacheState.call, cacheSkipFirstBuffer, hlist]
    apply callDone_same h hcall rfl (congrArg (·.2.out) hcall)
    rw [AnswersRight, hcall, hlist]
    rfl
  | cons buff rest =>
    obtain ⟨cache', heq, hrest, hcounted⟩ := cacheSkipFirstBuffer_spec h hlist
    have hcall : s.call .skipFirstBuffer =
        ({ s with cache := cache', hands := buff :: s.hands }, { out := buff.data }) := by
      simp [CacheState.call, heq]
    apply callDone_of hcall rfl (congrArg (·.2.out) hcall) _ _ hcounted
    · rw [List.forall_mem_cons]
      exact ⟨h.counted.sized buff (by simp [hlist]), h.hands⟩
    · change flat s.cache.list ++ [] = buff.data ++ flat cache'.list
      rw [hlist, hrest, List.append_nil]
      rfl
    · rw [AnswersRight, hcall, hlist]
      rfl

theorem call_tcpRecv (h : CacheGood s) (mallocs : List Bool) (results : List RecvResult) :
    CallDone s (.tcpRecv mallocs results) := by
  obtain ⟨hflat, hcounted⟩ := recvLoop_spec 100 results h.counted mallocs 0
  exact ⟨hflat.symm, trivial, hcounted, h.hands⟩

theorem call_tcpSend (h : CacheGood s) (results : List SendResult) : CallDone s (.tcpSend results) := by
  obtain ⟨cache', pool', ret, bytes, heq, hcontent, hcounted⟩ := cacheTcpSend_spec h results
  have hcall : s.call (.tcpSend results) =
      ({ s with cache := cache', pool := pool' }, { ret := ret, out := bytes }) := by
    simp only [CacheState.call, heq]
  apply callDone_of hcall rfl (congrArg (·.2.out) hcall) _ trivial hcounted h.hands
  change s.content ++ [] = bytes ++ flat cache'.list
  rw [List.append_nil, hcontent]

theorem call_newBuffer (h : CacheGood s) (hsize : size < 2 ^ 31) (mallocs : List Bool) :
    CallDone s (.newBuffer size mallocs) := by
  rcases hnew : s.pool.newSkBuffer size mallocs with ⟨_ | buff, pool', mallocs'⟩
  · obtain rfl := newSkBuffer_none hnew
    have hcall : s.call (.newBuffer size mallocs) = (s, {}) := by
      simp [CacheState.call, hnew]
    exact callDone_same h hcall rfl (congrArg (·.2.out) hcall) trivial
  · have hcall : s.call (.newBuffer size mallocs) =
        ({ s with pool := pool', hands := buff :: s.hands }, {}) := by
      simp [CacheState.call, hnew]
    have hacc := h.counted.accounts.newSkBuffer hnew
    obtain ⟨rfl, rfl, -⟩ := newSkBuffer_some hnew
    apply callDone_of hcall rfl (congrArg (·.2.out) hcall) (List.append_nil _) trivial
    · refine ⟨⟨h.counted.count, h.counted.sized, ?_, ?_⟩, h.counted.len⟩
      · exact ⟨h.counted.ready.small, h.counted.ready.empty, h.counted.ready.sized⟩
      · exact hacc.of_perm (by simp only [ids_append, ids_cons]; exact List.perm_middle)
    · rw [List.forall_mem_cons]
      exact ⟨⟨Nat.zero_le _, hsize⟩, h.hands⟩

theorem call_allocBuffer (h : CacheGood s) (mallocs : List Bool) : CallDone s (.allocBuffer mallocs) := by
  rcases hnew : s.pool.allocSkBuffer mallocs with ⟨_ | buff, pool', mallocs'⟩
  · obtain rfl := allocSkBuffer_none hnew
    have hcall : s.call (.allocBuffer mallocs) = (s, {}) := by
      simp [CacheState.call, hnew]
    exact callDone_same h hcall rfl (congrArg (·.2.out) hcall) trivial
  · have hcall : s.call (.allocBuffer mallocs) =
        ({ s with pool := pool', hands := buff :: s.hands }, {}) := by
      simp [CacheState.call, hnew]
    obtain ⟨⟨-, -, hsized⟩, hready, hacc, -⟩ :=
      allocSkBuffer_some h.counted.ready h.counted.accounts hnew
    apply callDone_of hcall rfl (congrArg (·.2.out) hcall) (List.append_nil _) trivial
    · refine ⟨⟨h.counted.count, h.counted.sized, hready, ?_⟩, h.counted.len⟩
      exact hacc.of_perm (by simp only [ids_append, ids_cons]; exact List.perm_middle)
    · rw [List.forall_mem_cons]
      exact ⟨hsized, h.hands⟩

theorem call_writeBuffer (h : CacheGood s) (id offset : ℕ) (data : List UInt8) :
    CallDone s (.writeBuffer id offset data) := by
  cases hfind : s.hands.find? (·.id == id) with
  | none =>
    have hcall : s.call (.writeBuffer id offset data) = (s, {}) := by simp only [CacheState.call, hfind]
    exact callDone_same h hcall rfl (congrArg (·.2.out) hcall) trivial
  | some buff =>
    obtain ⟨hmem, hperm⟩ := find_hands hfind
    by_cases hin : offset + data.length ≤ buff.size
    · have hcall : s.call (.writeBuffer id offset data) = ({ s with
          hands := { buff with offset := offset, data := data } :: s.hands.erase buff }, {}) := by
        simp only [CacheState.call, hfind, if_pos hin]
      apply callDone_of hcall rfl (congrArg (·.2.out) hcall) (List.append_nil _) trivial
      · refine ⟨⟨h.counted.count, h.counted.sized, h.counted.ready, ?_⟩, h.counted.len⟩
        apply h.counted.accounts.of_perm
        simp only [ids_append]
        exact hperm.append_left _
      · rw [List.forall_mem_cons]
        exact ⟨⟨hin, (h.hands buff hmem).small⟩, fun b hb => h.hands b (List.mem_of_mem_erase hb)⟩
    · have hcall : s.call (.writeBuffer id offset data) = (s, {}) := by
        simp only [CacheState.call, hfind, if_neg hin]
      exact callDone_same h hcall rfl (congrArg (·.2.out) hcall) trivial

theorem call_freeBuffer (h : CacheGood s) (id : ℕ) : CallDone s (.freeBuffer id) := by
  cases hfind : s.hands.find? (·.id == id) with
  | none =>
    have hcall : s.call (.freeBuffer id) = (s, {}) := by simp only [CacheState.call, hfind]
    exact callDone_same h hcall rfl (congrArg (·.2.out) hcall) trivial
  | some buff =>
    obtain ⟨hmem, hperm⟩ := find_hands hfind
    have hcall : s.call (.freeBuffer id) =
        ({ s with pool := s.pool.freeSkBuffer buff, hands := s.hands.erase buff }, {}) := by
      simp only [CacheState.call, hfind]
    apply callDone_of hcall rfl (congrArg (·.2.out) hcall) (List.append_nil _) trivial
    · refine ⟨⟨h.counted.count, h.counted.sized, ?_, ?_⟩, h.counted.len⟩
      · exact freeSkBuffer_ready h.counted.ready (h.hands buff hmem)
      · apply Accounts.freeSkBuffer
        apply h.counted.accounts.of_perm
        simp only [ids_append, ids_cons] at hperm ⊢
        exact List.perm_middle.symm.trans (hperm.append_left _)
    · exact fun b hb => h.hands b (List.mem_of_mem_erase hb)

/-- **One call.** -/
theorem callDone (h : CacheGood s) (hsmall : SmallSizes op) : CallDone s op := by
  cases op with
  | appendData mallocs data => exact call_appendData h mallocs hsmall
  | appendBuffer id => exact call_appendBuffer h id
  | copyOut len => exact call_copyOut h len
  | skipData len => exact call_skipData h len
  | skipFirstBuffer => exact call_skipFirstBuffer h
  | tcpRecv mallocs results => exact call_tcpRecv h mallocs results
  | tcpSend results => exact call_tcpSend h results
  | newBuffer size mallocs => exact call_newBuffer h hsmall mallocs
  | allocBuffer mallocs => exact call_allocBuffer h mallocs
  | writeBuffer id offset data => exact call_writeBuffer h id offset data
  | freeBuffer id => exact call_freeBuffer h id

theorem CacheGood.step (h : CacheGood s) (hsmall : SmallSizes op) (hfits : Fits s op) :
    CacheGood (s.step op) :=
  have hdone := callDone h hsmall
  ⟨hdone.counted, hdone.hands, hfits.1, hfits.2⟩

theorem callFifo (h : CacheGood s) (hsmall : SmallSizes op) (hfits : Fits s op) :
    CallFifo s op :=
  have hdone := callDone h hsmall
  ⟨hdone.queue, hdone.answers, (h.step hsmall hfits).right⟩

/-- INTERNAL: a length from 2^31 on is no `int32_t`, so a call that appends so many bytes cannot return
their number. -/
theorem appendData_long (h : Counted s.cache s.pool s.hands) {mallocs : List Bool}
    (hdata : 2 ^ 31 ≤ data.length) (hans : AnswersRight s (.appendData mallocs data)) :
    (s.call (.appendData mallocs data)).2.ret = -2 ∧
      (s.step (.appendData mallocs data)).content = s.content := by
  rcases hans with ⟨hret, -⟩ | hfail
  · exfalso
    have hlt : int32 (data.length : ℤ) < 2 ^ 31 := by
      have hbmod : int32 (data.length : ℤ) < (((2 ^ 32 : ℕ) : ℤ) + 1) / 2 :=
        Int.bmod_lt (Nat.two_pow_pos 32)
      omega
    rcases cacheAppendData_cases h mallocs data with ⟨cache', pool', heq, -, -⟩ | ⟨pool', heq, -⟩
    · simp only [CacheState.call, heq] at hret
      omega
    · simp only [CacheState.call, heq] at hret
      omega
  · exact hfail

theorem cacheGood_run {ops : List CacheOp} (h : CacheGood s) (hsmall : ∀ op ∈ ops, SmallSizes op)
    (hfits : AllSteps CacheState.step Fits s ops) :
    AllSteps CacheState.step CallFifo s ops ∧ CacheGood (ops.foldl CacheState.step s) := by
  induction ops generalizing s with
  | nil => exact ⟨trivial, h⟩
  | cons op ops ih =>
    rw [List.forall_mem_cons] at hsmall
    obtain ⟨hrest, hgood⟩ := ih (h.step hsmall.1 hfits.1) hsmall.2 hfits.2
    exact ⟨⟨callFifo h hsmall.1 hfits.1, hrest⟩, hgood⟩

/-- **The cache is a queue of bytes.**  With sizes below 2^31, and as long as all bytes and all
buffers can be counted in 32 bits, every call behaves as one of a queue and leaves the counters, the
buffers and what can be read right; along the run the bytes come out in the order in which they went in.
The bound on the size of an appended piece is needed in every state that is reached.
SOURCE: mt_cache.cpp:111-350, 394-494, 640-686 -/
theorem cache_fifo {size : ℕ} (hsize : size < 2 ^ 31) {ops : List CacheOp}
    (hsmall : ∀ op ∈ ops, SmallSizes op)
    (hfits : AllSteps CacheState.step Fits (CacheState.init size) ops) :
    AllSteps CacheState.step CallFifo (CacheState.init size) ops ∧
    gathered CacheState.step putIn (CacheState.init size) ops =
      gathered CacheState.step takenOut (CacheState.init size) ops ++
        (ops.foldl CacheState.step (CacheState.init size)).content ∧
    ∀ mallocs data, 2 ^ 31 ≤ data.length →
      AnswersRight (ops.foldl CacheState.step (CacheState.init size)) (.appendData mallocs data) →
      ((ops.foldl CacheState.step (CacheState.init size)).call (.appendData mallocs data)).2.ret = -2 := by
  obtain ⟨hrun, hgood⟩ := cacheGood_run (cacheGood_init hsize) hsmall hfits
  refine ⟨hrun, ?_, ?_⟩
  · have hqueue : AllSteps CacheState.step (fun s op => s.content ++ putIn s op =
        takenOut s op ++ (s.step op).content) (CacheState.init size) ops :=
      AllSteps.imp (I := fun _ => True) (fun _ _ _ _ => trivial) (fun _ _ _ hcall => hcall.queue)
        trivial hrun
    exact gathered_fifo hqueue
  · exact fun mallocs data hdata hans => (appendData_long hgood.counted hdata hans).1

/-- Five bytes go through buffers of four; three are sent, and the caller copies one more. -/
theorem cache_fifo_five_bytes :
    AllSteps CacheState.step CallFifo (CacheState.init 4)
      [.appendData [true, true] [1, 2, 3, 4, 5], .tcpSend [⟨some 3, false⟩], .copyOut 1] := by
  apply (cache_fifo (by decide) _ _).1
  · simp [SmallSizes]
  · exact ⟨⟨by decide, by decide⟩, ⟨by decide, by decide⟩, ⟨by decide, by decide⟩, trivial⟩

/-- A piece that fits into one buffer, appended to an empty cache. -/
theorem appendData_one_buffer (hpos : data.length ≠ 0) (hsize : data.length ≤ size) :
    ((CacheState.init size).call (.appendData [true] data)).2.ret = int32 data.length := by
  simp [CacheState.call, CacheState.init, cacheAppendData, rwCacheInit, lastRemain, keepLoop,
    TSkBuffMng.allocSkBuffer, TSkBuffMng.newSkBuffer, List.length_eq_zero_iff.not.mp hpos, hsize]

/-- 2^31 bytes are appended, and -2^31 is returned. -/
theorem appendData_two_gibibytes :
    ¬ AllSteps CacheState.step CallFifo (CacheState.init (2 ^ 31))
      [.appendData [true] (List.replicate (2 ^ 31) 0)] := by
  intro h
  have hlen : (List.replicate (2 ^ 31) (0 : UInt8)).length = 2 ^ 31 := List.length_replicate
  have hans := h.1.answers
  generalize List.replicate (2 ^ 31) (0 : UInt8) = data at hlen hans
  have hcall := appendData_one_buffer (by omega) hlen.le
  rw [hlen] at hcall
  rcases hans with ⟨hret, -⟩ | ⟨hret, -⟩
  · rw [hcall, hlen] at hret
    exact absurd hret (by decide)
  · rw [hcall] at hret
    exact absurd hret (by decide)

end FStack.Analysis
