import FStack.Analysis.ShareAllocated
import FStack.Model.ShareScatter
import FStack.Analysis.CacheBuffers

/-!
# What `readv` and `recvmsg` hand to the application

`ff_recvmsg` writes the array back before it returns, so the bytes are found where the stack has stored them, as
long as the stack succeeds and their number is an `int` (`shareToLocal_restored`).  `ff_readv` leaves the array as
the stack has consumed it, so that as soon as a byte has been moved a base is freed that has never been allocated
(`exists_off_of_moved`).  `scatter_call_right_iff` says when the two calls are right.
-/

set_option autoImplicit false

namespace FStack.Analysis

open FStack.Model FStack.Prelude

/-- The bytes of the call are in the buffers, in order, nothing else has changed, and the blocks that have been
allocated are freed. -/
def ScatterRight (bufs : List (List UInt8)) (r : ScatterResult) : Prop :=
  r.ended = .refused ∨
    r.ended = .returned ∧ r.heap.freed.Perm r.heap.allocated ∧ r.bufs.map List.length = bufs.map List.length ∧
      r.bufs.flatten = r.data ++ bufs.flatten.drop r.data.length

/-- A call for buffers of the given lengths, when the socket has `n` bytes for it. -/
inductive ScatterCall where
  | readv (lens : List ℕ) (n : ℕ) (ok : Bool)
  | recvmsg (ndebug : Bool) (msg_name msg_control : Option ℕ) (lens : List ℕ) (n : ℕ) (ok : Bool)
      (msg_namelen msg_controllen : ℕ)
deriving DecidableEq, Repr

/-- The call is right whatever the bytes are, and whatever is in the buffers before. -/
def ScatterCallRight (h : ShareHeap) : ScatterCall → Prop
  | .readv lens n ok =>
    ∀ mem bufs data, bufs.map List.length = lens → data.length = n →
      ScatterRight bufs (ffHookReadv h mem bufs ⟨data, ok, 0, 0⟩)
  | .recvmsg ndebug msg_name msg_control lens n ok msg_namelen msg_controllen =>
    ∀ mem bufs data, bufs.map List.length = lens → data.length = n →
      ScatterRight bufs
        (ffHookRecvmsg ndebug h mem msg_name msg_control bufs ⟨data, ok, msg_namelen, msg_controllen⟩)

/-- The array that would be the call number `k` is granted, with all its buffers. -/
def ArrayGranted (h : ShareHeap) (k : ℕ) (lens : List ℕ) (iovcnt : ℤ) : Prop :=
  iovcnt ≠ 0 ∧ Granted h k ((16 * iovcnt) % 2 ^ 64).toNat ∧
    ∀ i len, (lens.take iovcnt.toNat)[i]? = some len → Granted h (k + 1 + i) len

/-- The message, with an array of the given lengths, is granted. -/
def MessageGranted (h : ShareHeap) (msg : CallerMsg) (lens : List ℕ) : Prop :=
  FieldsGranted h msg ∧
    ArrayGranted h (1 + (fieldCalls msg.msg_name + fieldCalls msg.msg_control)) lens (int32 msg.msg_iovlen)

/-- No buffer of 4 GiB or more gets more bytes than the low 32 bits of its length. -/
def BytesPlaced : List ℕ → ℕ → Prop
  | [], _ => True
  | len :: lens, n => (len < 2 ^ 32 ∨ n ≤ len % 2 ^ 32) ∧ BytesPlaced lens (n - len)

/-- The bytes that F-Stack moves. -/
def bytesMoved (lens : List ℕ) (n : ℕ) : ℕ := min n (shareRoom lens)

/-- The request is not sent, or no byte is moved, or (for `recvmsg`) the array is written back and the bytes are
found where they are looked for. -/
def ScatterCallSafe (h : ShareHeap) : ScatterCall → Prop
  | .readv lens n _ => ¬ArrayGranted h 0 lens lens.length ∨ bytesMoved lens n = 0
  | .recvmsg ndebug msg_name msg_control lens n ok msg_namelen msg_controllen =>
    ¬MessageGranted h ⟨msg_name, some lens, lens.length, msg_control⟩ lens ∨ UIO_MAXIOV < lens.length ∨
      ok = false ∧ bytesMoved lens n = 0 ∨
      ok = true ∧ lengthsAsserted ndebug msg_name msg_control ⟨[], ok, msg_namelen, msg_controllen⟩ = true ∧
        bytesMoved lens n < 2 ^ 31 ∧ BytesPlaced lens (bytesMoved lens n)

/-! ## Allocating -/

/-- `iovec_share_alloc` succeeds exactly when all it asks for is granted. -/
theorem iovecShareAlloc_cases (h : ShareHeap) (lens : List ℕ) (iovcnt : ℤ) :
    (ArrayGranted h h.calls lens iovcnt ∧ ∃ k, h.iovecShareAlloc (some lens) iovcnt =
        (ShareHeap.moved h k (⟨h.calls, 0⟩ :: blocks (h.calls + 1) (lens.take iovcnt.toNat).length) [],
          some (⟨h.calls, 0⟩, blocks (h.calls + 1) (lens.take iovcnt.toNat).length))) ∨
      (¬ArrayGranted h h.calls lens iovcnt ∧ ∃ h', h.iovecShareAlloc (some lens) iovcnt = (h', none)) := by
  unfold ShareHeap.iovecShareAlloc
  dsimp only
  by_cases hzero : iovcnt = 0
  · rw [if_pos hzero]
    exact .inr ⟨fun hg => hg.1 hzero, _, rfl⟩
  rw [if_neg hzero]
  by_cases hgranted : Granted h h.calls ((16 * iovcnt) % 2 ^ 64).toNat
  swap
  · rw [shareMemAlloc_of_refused h hgranted]
    exact .inr ⟨fun hg => hgranted hg.2.1, _, rfl⟩
  rw [shareMemAlloc_of_granted h hgranted]
  dsimp only
  obtain ⟨n, k, hn, heq, hbefore, hstop⟩ :=
    allocBases_spec (ShareHeap.moved h 1 [⟨h.calls, 0⟩] []) (lens.take iovcnt.toNat)
  rw [heq]
  simp only [granted_moved, moved_calls, moved_moved, List.append_nil, length_blocks] at hbefore hstop ⊢
  by_cases hall : n = (lens.take iovcnt.toNat).length
  · rw [if_pos hall]
    refine .inl ⟨⟨hzero, hgranted, fun i len hlen => hbefore i len ?_ hlen⟩, 1 + k, by rw [← hall]; rfl⟩
    obtain ⟨hi, -⟩ := List.getElem?_eq_some_iff.mp hlen
    omega
  · rw [if_neg hall]
    obtain ⟨len, hlen, hrefused⟩ := hstop (by omega)
    exact .inr ⟨fun hg => hrefused (hg.2.2 n len hlen), _, rfl⟩

/-- And so does `msghdr_share_alloc`. -/
theorem msghdrShareAlloc_cases (h : ShareHeap) (hcalls : h.calls = 0) (msg : CallerMsg) {lens : List ℕ}
    (hiov : msg.msg_iov = some lens) :
    (MessageGranted h msg lens ∧
      ∃ k array bases, bases = blocks (array + 1) (lens.take (int32 msg.msg_iovlen).toNat).length ∧
        h.msghdrShareAlloc msg =
          (ShareHeap.moved h k
              (⟨0, 0⟩ :: blocks 1 (fieldCalls msg.msg_name + fieldCalls msg.msg_control) ++ ⟨array, 0⟩ :: bases) [],
            some (messageOf msg (some (⟨array, 0⟩, bases.map some))))) ∨
      (¬MessageGranted h msg lens ∧ ∃ h', h.msghdrShareAlloc msg = (h', none)) := by
  by_cases hfields : FieldsGranted h msg
  swap
  · obtain ⟨hnull, -⟩ := msghdrShareAlloc_of_refused h hcalls msg hfields trivial
    exact .inr ⟨fun hg => hfields hg.1, (h.msghdrShareAlloc msg).1, Prod.ext rfl hnull⟩
  rw [msghdrShareAlloc_of_granted h hcalls msg hfields, hiov]
  have hcases := iovecShareAlloc_cases (messageHeap h msg) lens (int32 msg.msg_iovlen)
  have hgranted : ArrayGranted (messageHeap h msg) (messageHeap h msg).calls lens (int32 msg.msg_iovlen) ↔
      ArrayGranted h (1 + (fieldCalls msg.msg_name + fieldCalls msg.msg_control)) lens
        (int32 msg.msg_iovlen) := by
    rw [messageHeap, moved_calls, hcalls, Nat.zero_add]
    exact Iff.rfl
  rw [hgranted] at hcases
  rcases hcases with ⟨harray, k, heq⟩ | ⟨hnot, h', heq⟩
  · rw [heq, messageWith, messageHeap, moved_moved]
    exact .inl ⟨⟨hfields, harray⟩, _, _, _, rfl, rfl⟩
  · rw [heq, messageWith]
    exact .inr ⟨fun hg => hnot hg.2, _, rfl⟩

/-! ## Freeing -/

/-- All pointers that `share_mem_alloc` returns are to the beginning of a block. -/
theorem off_of_mem_blocks {k n : ℕ} {p : SharePtr} (hp : p ∈ blocks k n) : p.off = 0 := by
  rw [blocks, List.mem_map] at hp
  obtain ⟨b, -, rfl⟩ := hp
  rfl

/-- A pointer into a block cannot be among those that were allocated. -/
theorem not_perm_of_off {frees news : List SharePtr} (hnews : ∀ p ∈ news, p.off = 0)
    (hfrees : ∃ p ∈ frees, p.off ≠ 0) : ¬frees.Perm news := by
  rintro hperm
  obtain ⟨p, hp, hoff⟩ := hfrees
  exact hoff (hnews p (hperm.subset hp))

/-- What `iovec_share_free` frees of an array whose bases are all there. -/
theorem iovecShareFree_map_some (h : ShareHeap) (iov : SharePtr) (bases : List SharePtr) :
    h.iovecShareFree iov (bases.map some) = ShareHeap.moved h 0 [] (bases ++ [iov]) := by
  rw [iovecShareFree_eq, reduceOption_map_some]

/-- What `msghdr_share_free` frees of a message with an array. -/
theorem msghdrShareFree_messageOf (h : ShareHeap) (msg : CallerMsg) (iov : SharePtr) (bases : List SharePtr) :
    h.msghdrShareFree (messageOf msg (some (iov, bases.map some))) =
      ShareHeap.moved h 0 []
        (blocks 1 (fieldCalls msg.msg_name + fieldCalls msg.msg_control) ++ (bases ++ [iov]) ++ [⟨0, 0⟩]) := by
  rw [ShareHeap.msghdrShareFree, messageOf]
  dsimp only
  rw [shareMemFreeIf_eq, shareMemFreeIf_eq, iovecShareFree_map_some, shareMemFree_eq, moved_moved, moved_moved,
    moved_moved, fieldPtr_toList, fieldPtr_toList, ← blocks_append]
  simp only [Nat.add_zero, List.append_nil, List.append_assoc]

/-! ## The stack -/

/-- Bases that are not moved. -/
theorem uiomoveShare_nil (entries : List ShareEntry) :
    (uiomoveShare entries []).map ShareEntry.iov_base = entries.map ShareEntry.iov_base := by
  induction entries with
  | nil => rfl
  | cons e entries ih =>
    rw [uiomoveShare, List.map_cons, List.map_cons, List.drop_nil, ih, List.length_nil, Nat.min_zero]
    rfl

/-- **Once a byte has been moved, a base points into its block.** -/
theorem exists_off_of_moved (entries : List ShareEntry) (data : List UInt8) (hdata : data ≠ [])
    (hroom : data.length ≤ shareRoom (entries.map ShareEntry.iov_len)) :
    ∃ p ∈ (uiomoveShare entries data).map ShareEntry.iov_base, p.off ≠ 0 := by
  induction entries with
  | nil => exact absurd (List.length_eq_zero_iff.mp (Nat.le_zero.mp hroom)) hdata
  | cons e entries ih =>
    rw [uiomoveShare, List.map_cons]
    have hpos : 0 < data.length := List.length_pos_of_ne_nil hdata
    by_cases hcnt : e.iov_len % 2 ^ 32 = 0
    · -- this entry has no room
      have hroom' : data.length ≤ shareRoom (entries.map ShareEntry.iov_len) := by
        rw [shareRoom, List.map_cons, List.map_cons, List.sum_cons, hcnt, Nat.zero_add] at hroom
        exact hroom
      obtain ⟨p, hp, hoff⟩ := ih hroom'
      rw [hcnt, Nat.zero_min, List.drop_zero]
      exact ⟨p, List.mem_cons_of_mem _ hp, hoff⟩
    · refine ⟨_, List.mem_cons_self, ?_⟩
      have hmin : min (e.iov_len % 2 ^ 32) data.length ≠ 0 := by omega
      dsimp only
      omega

/-- A restored array has the bases that it had. -/
theorem restoreEntries_base (entries : List ShareEntry) (data : List UInt8) :
    (restoreEntries entries (uiomoveShare entries data)).map ShareEntry.iov_base =
      entries.map ShareEntry.iov_base := by
  induction entries generalizing data with
  | nil => rfl
  | cons e entries ih =>
    rw [uiomoveShare, restoreEntries, List.zipWith_cons_cons, List.map_cons, List.map_cons]
    congr 1
    exact ih _

/-! ## Copying -/

/-- The buffers keep their lengths. -/
theorem shareToLocal_lengths (entries : List ShareEntry) (bufs : List (List UInt8)) (total : ℕ) :
    (shareToLocal entries bufs total).map List.length = bufs.map List.length := by
  induction bufs generalizing entries total with
  | nil => cases entries <;> rfl
  | cons buf bufs ih =>
    cases entries with
    | nil => rfl
    | cons e entries =>
      rw [shareToLocal]
      split
      · rfl
      · rw [List.map_cons, List.map_cons, ih, List.length_append, length_readAt, List.length_drop]
        congr 1
        omega

/-- The bytes behind the first `total` are what they were. -/
theorem shareToLocal_drop (entries : List ShareEntry) (bufs : List (List UInt8)) (total : ℕ) :
    (shareToLocal entries bufs total).flatten.drop total = bufs.flatten.drop total := by
  induction bufs generalizing entries total with
  | nil => cases entries <;> rfl
  | cons buf bufs ih =>
    cases entries with
    | nil => rfl
    | cons e entries =>
      rw [shareToLocal]
      split
      · rfl
      · rw [List.flatten_cons, List.flatten_cons, List.drop_append, List.drop_append, List.drop_append,
          List.length_append, length_readAt, List.length_drop, List.drop_drop]
        by_cases hfull : buf.length ≤ total
        · have hmin : min total buf.length = buf.length := min_eq_right hfull
          have hread : (readAt e.mem e.iov_base.off buf.length).drop total = [] := by
            rw [List.drop_eq_nil_iff, length_readAt]
            exact hfull
          rw [hmin, hread, Nat.sub_self, Nat.add_zero, ih]
          congr 1
          rw [List.drop_eq_nil_of_le (by omega), List.drop_eq_nil_of_le (by omega), List.nil_append]
        · have hmin : min total buf.length = total := min_eq_left (by omega)
          have hread : (readAt e.mem e.iov_base.off total).drop total = [] := by
            rw [List.drop_eq_nil_iff, length_readAt]
          rw [hmin, hread, Nat.sub_self, List.nil_append]
          have htail := ih entries 0
          rw [List.drop_zero, List.drop_zero] at htail
          have hzero : total + (buf.length - total) = buf.length := by omega
          rw [hzero, show total - buf.length = 0 by omega, List.drop_zero, List.drop_zero, htail, Nat.add_zero]

/-- **What the stack has stored is copied**, if every buffer gets all of its bytes. -/
theorem shareToLocal_restored (entries : List ShareEntry) (bufs : List (List UInt8)) (data : List UInt8)
    (hoff : ∀ e ∈ entries, e.iov_base.off = 0)
    (hlens : bufs.map List.length = entries.map ShareEntry.iov_len)
    (hroom : data.length ≤ shareRoom (bufs.map List.length))
    (hplaced : BytesPlaced (bufs.map List.length) data.length) :
    (shareToLocal (restoreEntries entries (uiomoveShare entries data)) bufs data.length).flatten =
      data ++ bufs.flatten.drop data.length := by
  induction entries generalizing bufs data with
  | nil =>
    rw [List.map_nil, List.map_eq_nil_iff] at hlens
    subst hlens
    have hnil : data = [] := List.length_eq_zero_iff.mp (Nat.le_zero.mp hroom)
    rw [hnil]
    rfl
  | cons e entries ih =>
    cases bufs with
    | nil => cases hlens
    | cons buf bufs =>
      rw [List.map_cons, List.map_cons, List.cons.injEq] at hlens
      obtain ⟨hlen, hlens⟩ := hlens
      rw [List.map_cons] at hroom hplaced
      rw [shareRoom, List.map_cons, List.sum_cons] at hroom
      obtain ⟨hsmall, hplaced⟩ := hplaced
      rw [uiomoveShare, restoreEntries, List.zipWith_cons_cons, shareToLocal, ← restoreEntries, ← hlen]
      by_cases hzero : data.length = 0
      · rw [if_pos hzero, List.length_eq_zero_iff.mp hzero]
        rfl
      · -- the buffer has room for as many bytes as are looked for in it
        have hcnt : min (buf.length % 2 ^ 32) data.length = min data.length buf.length := by
          rcases hsmall with hsmall | hsmall
          · rw [Nat.mod_eq_of_lt hsmall, Nat.min_comm]
          · have hle := Nat.mod_le buf.length (2 ^ 32)
            omega
        rw [if_neg hzero, hcnt, hoff e List.mem_cons_self]
        dsimp only
        have hread : readAt (writeAt e.mem 0 (data.take (min data.length buf.length))) 0
            (min data.length buf.length) = data.take (min data.length buf.length) := by
          have hself := readAt_writeAt_self e.mem 0 (data.take (min data.length buf.length))
          rwa [List.length_take, Nat.min_eq_left (Nat.min_le_left _ _)] at hself
        have htail := ih bufs (data.drop (min data.length buf.length))
          (fun e' he' => hoff e' (List.mem_cons_of_mem _ he')) hlens
          (by rw [List.length_drop]; simp only [shareRoom] at hroom ⊢; omega)
          (by
            rw [List.length_drop]
            rwa [show data.length - min data.length buf.length = data.length - buf.length by omega])
        rw [List.length_drop] at htail
        rw [hread, List.flatten_cons, htail, List.flatten_cons]
        by_cases hfull : buf.length ≤ data.length
        · rw [min_eq_right hfull, List.drop_length, List.append_nil, ← List.append_assoc, List.take_append_drop,
            List.drop_append, List.drop_eq_nil_of_le hfull, List.nil_append]
        · rw [min_eq_left (by omega), List.take_length, List.drop_length, List.nil_append, Nat.sub_self,
            List.drop_zero, List.drop_append, show data.length - buf.length = 0 by omega, List.drop_zero,
            List.append_assoc]

theorem placed_zero (lens : List ℕ) : BytesPlaced lens 0 := by
  induction lens with
  | nil => trivial
  | cons len lens ih =>
    refine ⟨.inr (Nat.zero_le _), ?_⟩
    rw [Nat.zero_sub]
    exact ih

/-- **Only then**: of `n` bytes that are 1, from buffers that were 0, a buffer that is cut short gives a
0. -/
theorem placed_of_restored (entries : List ShareEntry) (bufs : List (List UInt8)) (n : ℕ)
    (hentries : ∀ e ∈ entries, e.iov_base.off = 0 ∧ e.mem = fun _ => 0)
    (hlens : bufs.map List.length = entries.map ShareEntry.iov_len)
    (heq : (shareToLocal (restoreEntries entries (uiomoveShare entries (List.replicate n 1))) bufs n).flatten =
      List.replicate n 1 ++ bufs.flatten.drop n) : BytesPlaced (bufs.map List.length) n := by
  induction entries generalizing bufs n with
  | nil =>
    rw [hlens]
    trivial
  | cons e entries ih =>
    cases bufs with
    | nil => cases hlens
    | cons buf bufs =>
      by_cases hzero : n = 0
      · rw [hzero]
        exact placed_zero _
      rw [List.map_cons, List.map_cons, List.cons.injEq] at hlens
      obtain ⟨hlen, hlens⟩ := hlens
      obtain ⟨hoff, hmem⟩ := hentries e List.mem_cons_self
      rw [uiomoveShare, restoreEntries, List.zipWith_cons_cons, shareToLocal, ← restoreEntries, if_neg hzero,
        ← hlen, hoff, hmem, List.length_replicate, List.take_replicate, List.drop_replicate,
        Nat.min_eq_left (Nat.min_le_right _ _)] at heq
      dsimp only at heq
      rw [List.flatten_cons, List.flatten_cons, List.append_assoc] at heq
      have htake := congrArg (List.take (min n buf.length)) heq
      rw [List.take_left' (length_readAt _ _ _), List.take_append_of_le_length
        (by rw [List.length_replicate]; exact Nat.min_le_left _ _), List.take_replicate,
        Nat.min_eq_left (Nat.min_le_left _ _)] at htake
      have hsmall : buf.length < 2 ^ 32 ∨ n ≤ buf.length % 2 ^ 32 := by
        by_contra hnot
        push Not at hnot
        obtain ⟨hbig, hmore⟩ := hnot
        have hlow : buf.length % 2 ^ 32 < 2 ^ 32 := Nat.mod_lt _ (Nat.two_pow_pos 32)
        have hindex : buf.length % 2 ^ 32 < min n buf.length := by omega
        -- the first byte that the stack has not stored
        have hbyte := congrArg (fun l => l[buf.length % 2 ^ 32]?) htake
        rw [List.getElem?_replicate, if_pos hindex, readAt, List.getElem?_map, List.getElem?_range hindex,
          Option.map_some, Option.some.injEq, Nat.zero_add, writeAt_of_outside] at hbyte
        · exact absurd hbyte (by decide)
        · rw [List.length_replicate]
          omega
      have hcnt : min (buf.length % 2 ^ 32) n = min n buf.length := by
        rcases hsmall with hsmall | hsmall
        · rw [Nat.mod_eq_of_lt hsmall, Nat.min_comm]
        · have hle := Nat.mod_le buf.length (2 ^ 32)
          omega
      refine ⟨hsmall, ?_⟩
      by_cases hfull : buf.length ≤ n
      · have hdrop := congrArg (List.drop buf.length) heq
        rw [hcnt, min_eq_right hfull, List.drop_left' (length_readAt _ _ _), List.drop_length, List.nil_append,
          List.drop_append_of_le_length (by rw [List.length_replicate]; exact hfull), List.drop_replicate,
          List.drop_append, List.drop_eq_nil_of_le hfull, List.nil_append] at hdrop
        exact ih bufs (n - buf.length) (fun e' he' => hentries e' (List.mem_cons_of_mem _ he')) hlens hdrop
      · rw [show n - buf.length = 0 by omega]
        exact placed_zero _

/-! ## The calls -/

section

variable (grants : ℕ → Bool) (junk : ℕ → ℕ → Option SharePtr)

theorem start_calls : (ShareHeap.start grants junk).calls = 0 := rfl

theorem moved_start_freed (k : ℕ) (a f : List SharePtr) :
    (ShareHeap.moved (ShareHeap.start grants junk) k a f).freed = f := rfl

theorem moved_start_allocated (k : ℕ) (a f : List SharePtr) :
    (ShareHeap.moved (ShareHeap.start grants junk) k a f).allocated = a := rfl

end

/-- The array that has been allocated. -/
theorem shareEntries_fields (mem : ℕ → ℕ → UInt8) (bases : List SharePtr) (lens : List ℕ)
    (hle : bases.length ≤ lens.length) :
    (shareEntries mem bases lens).map ShareEntry.iov_base = bases ∧
      (bases.length = lens.length → (shareEntries mem bases lens).map ShareEntry.iov_len = lens) ∧
      ∀ e ∈ shareEntries mem bases lens, e.iov_base ∈ bases ∧ e.mem = mem e.iov_base.block := by
  induction bases generalizing lens with
  | nil =>
    refine ⟨rfl, fun hlength => ?_, fun e he => absurd he List.not_mem_nil⟩
    exact (List.length_eq_zero_iff.mp hlength.symm).symm
  | cons base bases ih =>
    cases lens with
    | nil => cases hle
    | cons len lens =>
      obtain ⟨hbases, hlens, hmem⟩ := ih lens (Nat.le_of_succ_le_succ hle)
      rw [shareEntries, List.zipWith_cons_cons, ← shareEntries]
      refine ⟨?_, fun hlength => ?_, fun e he => ?_⟩
      · rw [List.map_cons, hbases]
      · rw [List.map_cons, hlens (Nat.succ.inj hlength)]
      · rcases List.mem_cons.mp he with heq | htail
        · rw [heq]
          exact ⟨List.mem_cons_self, rfl⟩
        · exact ⟨List.mem_cons_of_mem _ (hmem e htail).1, (hmem e htail).2⟩

/-- The bytes that are moved. -/
theorem length_take_room (data : List UInt8) (lens : List ℕ) :
    (data.take (shareRoom lens)).length = bytesMoved lens data.length := by
  rw [List.length_take, bytesMoved, Nat.min_comm]

theorem bytesMoved_le (lens : List ℕ) (n : ℕ) : bytesMoved lens n ≤ shareRoom lens := Nat.min_le_right _ _

/-- A greater one is not: fewer bytes are looked for. -/
theorem int32_toNat_lt {n : ℕ} (hn : 2 ^ 31 ≤ n) : (int32 n).toNat < n := by
  have hlt : int32 n < 2 ^ 31 := by
    unfold int32
    have hbmod := Int.bmod_lt (x := (n : ℤ)) (m := 2 ^ 32) (by decide)
    omega
  omega

/-- **`readv`** is right exactly when no byte is moved. -/
theorem readv_right_iff (grants : ℕ → Bool) (junk : ℕ → ℕ → Option SharePtr) (lens : List ℕ) (n : ℕ) (ok : Bool) :
    ScatterCallRight (ShareHeap.start grants junk) (.readv lens n ok) ↔
      ScatterCallSafe (ShareHeap.start grants junk) (.readv lens n ok) := by
  rw [ScatterCallRight, ScatterCallSafe]
  rcases iovecShareAlloc_cases (ShareHeap.start grants junk) lens lens.length with
    ⟨hgranted, k, heq⟩ | ⟨hnot, h', heq⟩
  swap
  · refine ⟨fun _ => .inl hnot, fun _ mem bufs data hlens hdata => .inl ?_⟩
    have hlength : (bufs.length : ℤ) = lens.length := by rw [← hlens, List.length_map]
    rw [ffHookReadv, hlens, hlength, heq]
  rw [Int.toNat_natCast, List.take_length, start_calls, Nat.zero_add] at heq
  -- what the call does, whatever is in the buffers
  have hrun : ∀ mem bufs data, bufs.map List.length = lens →
      ∃ bases entries, (∀ p ∈ bases, p.off = 0) ∧
        entries = uiomoveShare (shareEntries mem bases lens) (data.take (shareRoom lens)) ∧
        (shareEntries mem bases lens).map ShareEntry.iov_base = bases ∧
        (shareEntries mem bases lens).map ShareEntry.iov_len = lens ∧
        ffHookReadv (ShareHeap.start grants junk) mem bufs ⟨data, ok, 0, 0⟩ =
          ⟨ShareHeap.moved (ShareHeap.start grants junk) k (⟨0, 0⟩ :: bases)
              (entries.map ShareEntry.iov_base ++ [⟨0, 0⟩]),
            if 0 < (if ok = true then int32 (bytesMoved lens data.length) else -1) then
              shareToLocal entries bufs
                (if ok = true then int32 (bytesMoved lens data.length) else -1).toNat else bufs,
            if ok = true then data.take (shareRoom lens) else [], .returned⟩ := by
    intro mem bufs data hlens
    obtain ⟨hbases, hentries, -⟩ := shareEntries_fields mem (blocks 1 lens.length) lens (length_blocks 1 _).le
    refine ⟨blocks 1 lens.length, _, fun p hp => off_of_mem_blocks hp, rfl, hbases,
      hentries (length_blocks 1 _), ?_⟩
    have hlength : (bufs.length : ℤ) = lens.length := by rw [← hlens, List.length_map]
    rw [ffHookReadv, hlens, hlength, heq]
    dsimp only
    have hmap : ∀ l : List ShareEntry,
        l.map (fun e => some e.iov_base) = (l.map ShareEntry.iov_base).map some :=
      fun l => (List.map_map ..).symm
    rw [length_take_room, hmap, iovecShareFree_map_some, moved_moved, List.append_nil, List.nil_append,
      Nat.add_zero]
  constructor
  · intro hright
    refine .inr ?_
    by_contra hmoved
    obtain ⟨bases, entries, hoff, hentries, -, hlens, hcall⟩ :=
      hrun (fun _ _ => 0) (lens.map fun len => List.replicate len 0) (List.replicate n 1)
        (by simp [List.map_map, Function.comp_def])
    have hr := hright (fun _ _ => 0) (lens.map fun len => List.replicate len 0) (List.replicate n 1)
      (by simp [List.map_map, Function.comp_def]) (List.length_replicate ..)
    rw [hcall] at hr
    rcases hr with hrefused | ⟨-, hperm, -⟩
    · cases hrefused
    rw [moved_start_freed, moved_start_allocated] at hperm
    refine not_perm_of_off ?_ ?_ hperm
    · intro p hp
      rcases List.mem_cons.mp hp with heq | hp
      · rw [heq]
      · exact hoff p hp
    · have hlength := length_take_room (List.replicate n 1) lens
      rw [List.length_replicate] at hlength
      obtain ⟨p, hp, hpoff⟩ := exists_off_of_moved (shareEntries (fun _ _ => 0) bases lens)
        ((List.replicate n 1).take (shareRoom lens))
        (fun hnil => hmoved (by rw [← hlength, hnil]; rfl))
        (by rw [hlength, hlens]; exact bytesMoved_le lens n)
      rw [← hentries] at hp
      exact ⟨p, List.mem_append_left _ hp, hpoff⟩
  · rintro (hnot | hzero) mem bufs data hlens hdata
    · exact absurd hgranted hnot
    obtain ⟨bases, entries, -, hentries, hbases, -, hcall⟩ := hrun mem bufs data hlens
    have hnil : data.take (shareRoom lens) = [] :=
      List.length_eq_zero_iff.mp (by rw [length_take_room, hdata, hzero])
    rw [hnil] at hentries
    rw [hcall, hdata, hzero, hnil, hentries, uiomoveShare_nil, hbases]
    refine .inr ⟨rfl, ?_, ?_, ?_⟩
    · exact List.perm_append_singleton _ _
    · cases ok <;> rfl
    · cases ok <;> rfl

/-- What `recvmsg` does when the stack has returned: the header is the first block, and the array the block
`array`. -/
def recvmsgResult (heap : ShareHeap) (asserted : Bool) (k : ℕ) (fields : List SharePtr) (array : ℕ)
    (bases : List SharePtr) (bufs : List (List UInt8)) (entries : List ShareEntry) (ret : ℤ)
    (data : List UInt8) : ScatterResult :=
  let news := ⟨0, 0⟩ :: fields ++ ⟨array, 0⟩ :: bases
  if 0 ≤ ret ∧ asserted = false then ⟨ShareHeap.moved heap k news [], bufs, data, .aborted⟩
  else
    ⟨ShareHeap.moved heap k news (fields ++ (entries.map ShareEntry.iov_base ++ [⟨array, 0⟩]) ++ [⟨0, 0⟩]),
      if 0 < ret then shareToLocal entries bufs ret.toNat else bufs, data, .returned⟩

/-- A message that is granted is handed to the stack. -/
theorem recvmsg_run (grants : ℕ → Bool) (junk : ℕ → ℕ → Option SharePtr) (ndebug : Bool)
    (msg_name msg_control : Option ℕ) (lens : List ℕ)
    (hgranted : MessageGranted (ShareHeap.start grants junk) ⟨msg_name, some lens, lens.length, msg_control⟩ lens) :
    ∃ k array bases,
      (∀ p ∈ ⟨0, 0⟩ :: blocks 1 (fieldCalls msg_name + fieldCalls msg_control) ++ ⟨array, 0⟩ :: bases, p.off = 0) ∧
      bases.length ≤ lens.length ∧ (lens.length ≤ UIO_MAXIOV → bases.length = lens.length) ∧
      ∀ mem bufs answer, bufs.map List.length = lens →
        ffHookRecvmsg ndebug (ShareHeap.start grants junk) mem msg_name msg_control bufs answer =
          recvmsgResult (ShareHeap.start grants junk) (lengthsAsserted ndebug msg_name msg_control answer) k
            (blocks 1 (fieldCalls msg_name + fieldCalls msg_control)) array bases bufs
            (recvmsgEntries (shareEntries mem bases lens) lens.length answer).1
            (recvmsgEntries (shareEntries mem bases lens) lens.length answer).2.1
            (recvmsgEntries (shareEntries mem bases lens) lens.length answer).2.2 := by
  have hcases := msghdrShareAlloc_cases (ShareHeap.start grants junk) rfl
    ⟨msg_name, some lens, lens.length, msg_control⟩ rfl
  rcases hcases with ⟨-, k, array, bases, hbases, heq⟩ | ⟨hnot, -⟩
  swap
  · exact absurd hgranted hnot
  dsimp only at hbases
  refine ⟨k, array, bases, ?_, ?_, ?_, fun mem bufs answer hlens => ?_⟩
  · intro p hp
    rcases List.mem_append.mp hp with hp | hp
    · rcases List.mem_cons.mp hp with heq | hp
      · rw [heq]
      · exact off_of_mem_blocks hp
    · rcases List.mem_cons.mp hp with heq | hp
      · rw [heq]
      · rw [hbases] at hp
        exact off_of_mem_blocks hp
  · rw [hbases, length_blocks]
    exact List.length_take_le' _ _
  · intro hshort
    have hcnt : int32 lens.length = lens.length := by
      refine int32_natCast ?_
      rw [UIO_MAXIOV] at hshort
      omega
    rw [hbases, length_blocks, hcnt, Int.toNat_natCast, List.take_length]
  · have hlength : bufs.length = lens.length := by rw [← hlens, List.length_map]
    have hcnt : lens.length ≠ 0 := by
      intro hzero
      refine hgranted.2.1 ?_
      dsimp only
      rw [hzero]
      rfl
    rw [ffHookRecvmsg, hlens, hlength, if_neg hcnt, heq, messageOf]
    dsimp only
    rw [reduceOption_map_some]
    rcases recvmsgEntries (shareEntries mem bases lens) lens.length answer with ⟨entries, ret, data⟩
    dsimp only
    rw [recvmsgResult]
    split
    · rfl
    · have hmap : (entries.map fun e => some e.iov_base) = (entries.map ShareEntry.iov_base).map some :=
        (List.map_map ..).symm
      have hfree := msghdrShareFree_messageOf
        (ShareHeap.moved (ShareHeap.start grants junk) k
          (⟨0, 0⟩ :: blocks 1 (fieldCalls msg_name + fieldCalls msg_control) ++ ⟨array, 0⟩ :: bases) [])
        ⟨msg_name, some lens, lens.length, msg_control⟩ ⟨array, 0⟩ (entries.map ShareEntry.iov_base)
      rw [messageOf] at hfree
      dsimp only at hfree
      rw [hmap, hfree, moved_moved, List.append_nil, List.nil_append, Nat.add_zero]

/-- The blocks of a message whose bases have been restored are all freed. -/
theorem perm_message {fields bases : List SharePtr} {array hdr : SharePtr} :
    (fields ++ (bases ++ [array]) ++ [hdr]).Perm (hdr :: fields ++ array :: bases) := by
  refine (List.perm_append_singleton hdr _).trans ?_
  exact (((List.perm_append_singleton array bases).append_left fields).cons hdr)

section

variable (grants : ℕ → Bool) (junk : ℕ → ℕ → Option SharePtr) (ndebug : Bool) (msg_name msg_control : Option ℕ)
variable {lens : List ℕ} (n msg_namelen msg_controllen : ℕ)

/-- Buffers of the given lengths. -/
theorem map_length_zeros (lens : List ℕ) :
    (lens.map fun len => List.replicate len (0 : UInt8)).map List.length = lens := by
  simp [List.map_map, Function.comp_def]

/-- In a buffer of zeros there is no 1. -/
theorem getElem?_zeros (lens : List ℕ) (i : ℕ) :
    (lens.map fun len => List.replicate len (0 : UInt8)).flatten[i]? ≠ some 1 := by
  intro hsome
  have hmem := List.mem_of_getElem? hsome
  rw [List.mem_flatten] at hmem
  obtain ⟨buf, hbuf, hone⟩ := hmem
  rw [List.mem_map] at hbuf
  obtain ⟨len, -, rfl⟩ := hbuf
  exact absurd (List.eq_of_mem_replicate hone) (by decide)

variable (hgranted :
  MessageGranted (ShareHeap.start grants junk) ⟨msg_name, some lens, lens.length, msg_control⟩ lens)

include hgranted

/-- **A call that fails** leaves the array as the stack has left it. -/
theorem recvmsg_failed_iff (hshort : lens.length ≤ UIO_MAXIOV) :
    ScatterCallRight (ShareHeap.start grants junk)
        (.recvmsg ndebug msg_name msg_control lens n false msg_namelen msg_controllen) ↔
      bytesMoved lens n = 0 := by
  rw [ScatterCallRight]
  obtain ⟨k, array, bases, hoff, hle, hall, hrun⟩ :=
    recvmsg_run grants junk ndebug msg_name msg_control lens hgranted
  have hfields := fun mem => shareEntries_fields mem bases lens hle
  have hcall : ∀ mem bufs data, bufs.map List.length = lens →
      ffHookRecvmsg ndebug (ShareHeap.start grants junk) mem msg_name msg_control bufs
          ⟨data, false, msg_namelen, msg_controllen⟩ =
        ⟨ShareHeap.moved (ShareHeap.start grants junk) k
            (⟨0, 0⟩ :: blocks 1 (fieldCalls msg_name + fieldCalls msg_control) ++ ⟨array, 0⟩ :: bases)
            (blocks 1 (fieldCalls msg_name + fieldCalls msg_control) ++
              ((uiomoveShare (shareEntries mem bases lens) (data.take (shareRoom lens))).map
                ShareEntry.iov_base ++ [⟨array, 0⟩]) ++ [⟨0, 0⟩]), bufs, [], .returned⟩ := by
    intro mem bufs data hlens
    rw [hrun mem bufs _ hlens, recvmsgEntries, if_neg (Nat.not_lt.mpr hshort), (hfields mem).2.1 (hall hshort),
      if_neg Bool.false_ne_true]
    dsimp only
    rw [recvmsgResult, if_neg (fun hneg => absurd hneg.1 (by decide)), if_neg (by decide)]
  constructor
  · intro hright
    by_contra hmoved
    have hr := hright (fun _ _ => 0) _ (List.replicate n 1) (map_length_zeros lens) (List.length_replicate ..)
    rw [hcall _ _ _ (map_length_zeros lens)] at hr
    rcases hr with hrefused | ⟨-, hperm, -⟩
    · cases hrefused
    rw [moved_start_freed, moved_start_allocated] at hperm
    refine not_perm_of_off hoff ?_ hperm
    have hlen := length_take_room (List.replicate n 1) lens
    rw [List.length_replicate] at hlen
    obtain ⟨p, hp, hpoff⟩ := exists_off_of_moved (shareEntries (fun _ _ => 0) bases lens)
      ((List.replicate n 1).take (shareRoom lens))
      (fun hnil => hmoved (by rw [← hlen, hnil]; rfl))
      (by rw [hlen, (hfields _).2.1 (hall hshort)]; exact bytesMoved_le lens n)
    exact ⟨p, List.mem_append_left _ (List.mem_append_right _ (List.mem_append_left _ hp)), hpoff⟩
  · intro hzero mem bufs data hlens hdata
    have hnil : data.take (shareRoom lens) = [] :=
      List.length_eq_zero_iff.mp (by rw [length_take_room, hdata, hzero])
    rw [hcall mem bufs data hlens, hnil, uiomoveShare_nil, (hfields mem).1]
    exact .inr ⟨rfl, perm_message, rfl, rfl⟩

/-- **A call that succeeds** finds the array as it was, and the bytes in it. -/
theorem recvmsg_succeeded_iff (hshort : lens.length ≤ UIO_MAXIOV) :
    ScatterCallRight (ShareHeap.start grants junk)
        (.recvmsg ndebug msg_name msg_control lens n true msg_namelen msg_controllen) ↔
      lengthsAsserted ndebug msg_name msg_control ⟨[], true, msg_namelen, msg_controllen⟩ = true ∧
        bytesMoved lens n < 2 ^ 31 ∧ BytesPlaced lens (bytesMoved lens n) := by
  rw [ScatterCallRight]
  obtain ⟨k, array, bases, hoff, hle, hall, hrun⟩ :=
    recvmsg_run grants junk ndebug msg_name msg_control lens hgranted
  have hfields := fun mem => shareEntries_fields mem bases lens hle
  have hentries : ∀ mem, ∀ e ∈ shareEntries mem bases lens, e.iov_base.off = 0 := fun mem e he =>
    hoff _ (List.mem_append_right _ (List.mem_cons_of_mem _ ((hfields mem).2.2 e he).1))
  have hcall : ∀ mem bufs data, bufs.map List.length = lens →
      ffHookRecvmsg ndebug (ShareHeap.start grants junk) mem msg_name msg_control bufs
          ⟨data, true, msg_namelen, msg_controllen⟩ =
        recvmsgResult (ShareHeap.start grants junk)
          (lengthsAsserted ndebug msg_name msg_control ⟨[], true, msg_namelen, msg_controllen⟩) k
          (blocks 1 (fieldCalls msg_name + fieldCalls msg_control)) array bases bufs
          (restoreEntries (shareEntries mem bases lens)
            (uiomoveShare (shareEntries mem bases lens) (data.take (shareRoom lens))))
          (int32 (bytesMoved lens data.length)) (data.take (shareRoom lens)) := by
    intro mem bufs data hlens
    rw [hrun mem bufs _ hlens, recvmsgEntries, if_neg (Nat.not_lt.mpr hshort), (hfields mem).2.1 (hall hshort),
      if_pos rfl]
    dsimp only
    rw [length_take_room]
    rfl
  constructor
  · intro hright
    have hr := hright (fun _ _ => 0) _ (List.replicate n 1) (map_length_zeros lens) (List.length_replicate ..)
    have hlen := length_take_room (List.replicate n 1) lens
    rw [List.length_replicate] at hlen
    have hdata : (List.replicate n (1 : UInt8)).take (shareRoom lens) = List.replicate (bytesMoved lens n) 1 := by
      rw [List.take_replicate, bytesMoved, Nat.min_comm]
    rw [hcall _ _ _ (map_length_zeros lens), hdata, List.length_replicate, recvmsgResult] at hr
    split at hr
    · rcases hr with hended | ⟨hended, -⟩
      · cases hended
      · cases hended
    rename_i hasserted
    rcases hr with hended | ⟨-, -, -, hflatten⟩
    · cases hended
    dsimp only at hflatten
    have hint : bytesMoved lens n < 2 ^ 31 := by
      by_contra hbig
      have hlt := int32_toNat_lt (Nat.not_lt.mp hbig)
      -- the first byte that is not looked for
      have hdrop := congrArg (fun l => l[(int32 (bytesMoved lens n)).toNat]?) hflatten
      rw [List.getElem?_append_left (by rw [List.length_replicate]; exact hlt), List.getElem?_replicate,
        if_pos hlt] at hdrop
      split at hdrop
      · have hsame := congrArg (fun l => l[0]?)
          (shareToLocal_drop (restoreEntries (shareEntries (fun _ _ => 0) bases lens)
            (uiomoveShare (shareEntries (fun _ _ => 0) bases lens) (List.replicate (bytesMoved lens n) 1)))
            (lens.map fun len => List.replicate len 0) (int32 (bytesMoved lens n)).toNat)
        rw [List.getElem?_drop, List.getElem?_drop, Nat.add_zero, hdrop] at hsame
        exact getElem?_zeros lens _ hsame.symm
      · exact getElem?_zeros lens _ hdrop
    rw [int32_natCast hint] at hasserted hflatten
    refine ⟨?_, hint, ?_⟩
    · by_contra hnot
      exact hasserted ⟨Int.natCast_nonneg _, by simpa using hnot⟩
    · by_cases hzero : bytesMoved lens n = 0
      · rw [hzero]
        exact placed_zero lens
      · rw [if_pos (by omega), Int.toNat_natCast, List.length_replicate] at hflatten
        have hplaced := placed_of_restored _ _ (bytesMoved lens n)
          (fun e he => ⟨hentries _ e he, ((hfields _).2.2 e he).2⟩)
          (by rw [map_length_zeros, (hfields _).2.1 (hall hshort)]) hflatten
        rwa [map_length_zeros] at hplaced
  · rintro ⟨hasserted, hint, hplaced⟩ mem bufs data hlens hdata
    have hlen := length_take_room data lens
    rw [hcall mem bufs data hlens, hasserted, hdata, int32_natCast hint, recvmsgResult,
      if_neg (fun hneg => absurd hneg.2 (by decide)), restoreEntries_base, (hfields mem).1]
    refine .inr ⟨rfl, perm_message, ?_, ?_⟩
    · dsimp only
      split
      · exact shareToLocal_lengths _ _ _
      · rfl
    · dsimp only
      rw [hlen, hdata]
      by_cases hzero : bytesMoved lens n = 0
      · have hnil : data.take (shareRoom lens) = [] :=
          List.length_eq_zero_iff.mp (by rw [hlen, hdata, hzero])
        rw [if_neg (by omega), hnil, hzero]
        rfl
      · have hrestored := shareToLocal_restored (shareEntries mem bases lens) bufs
          (data.take (shareRoom lens)) (hentries mem)
          (by rw [hlens, (hfields mem).2.1 (hall hshort)])
          (by rw [hlen, hlens]; exact bytesMoved_le lens _)
          (by rw [hlen, hdata, hlens]; exact hplaced)
        rw [hlen, hdata] at hrestored
        rw [if_pos (by omega), Int.toNat_natCast, hrestored]

end

/-- **`recvmsg`** is right exactly when it is safe. -/
theorem recvmsg_right_iff (grants : ℕ → Bool) (junk : ℕ → ℕ → Option SharePtr) (ndebug : Bool)
    (msg_name msg_control : Option ℕ) (lens : List ℕ) (n : ℕ) (ok : Bool) (msg_namelen msg_controllen : ℕ) :
    ScatterCallRight (ShareHeap.start grants junk)
        (.recvmsg ndebug msg_name msg_control lens n ok msg_namelen msg_controllen) ↔
      ScatterCallSafe (ShareHeap.start grants junk)
        (.recvmsg ndebug msg_name msg_control lens n ok msg_namelen msg_controllen) := by
  by_cases hgranted :
    MessageGranted (ShareHeap.start grants junk) ⟨msg_name, some lens, lens.length, msg_control⟩ lens
  swap
  · refine ⟨fun _ => .inl hgranted, fun _ mem bufs data hlens hdata => .inl ?_⟩
    have hlength : bufs.length = lens.length := by rw [← hlens, List.length_map]
    rcases msghdrShareAlloc_cases (ShareHeap.start grants junk) rfl
      ⟨msg_name, some lens, lens.length, msg_control⟩ rfl with ⟨hg, -⟩ | ⟨-, h', heq⟩
    · exact absurd hg hgranted
    rw [ffHookRecvmsg, hlens, hlength]
    by_cases hzero : lens.length = 0
    · rw [if_pos hzero]
    · rw [if_neg hzero, heq]
  by_cases hlong : UIO_MAXIOV < lens.length
  · -- the array is too long for the stack, which does not touch it
    refine ⟨fun _ => .inr (.inl hlong), fun _ mem bufs data hlens hdata => ?_⟩
    obtain ⟨k, array, bases, -, hle, -, hrun⟩ :=
      recvmsg_run grants junk ndebug msg_name msg_control lens hgranted
    obtain ⟨hmap, -, -⟩ := shareEntries_fields mem bases lens hle
    rw [hrun mem bufs _ hlens, recvmsgEntries, if_pos hlong]
    dsimp only
    rw [recvmsgResult, if_neg (fun hneg => absurd hneg.1 (by decide)), if_neg (by decide), hmap]
    exact .inr ⟨rfl, perm_message, rfl, rfl⟩
  have hshort := Nat.not_lt.mp hlong
  cases ok with
  | false =>
    rw [recvmsg_failed_iff grants junk ndebug msg_name msg_control n msg_namelen msg_controllen hgranted hshort]
    refine ⟨fun hzero => .inr (.inr (.inl ⟨rfl, hzero⟩)), ?_⟩
    rintro (hnot | hlen | ⟨-, hzero⟩ | ⟨hok, -⟩)
    · exact absurd hgranted hnot
    · exact absurd hlen hlong
    · exact hzero
    · cases hok
  | true =>
    rw [recvmsg_succeeded_iff grants junk ndebug msg_name msg_control n msg_namelen msg_controllen hgranted hshort]
    refine ⟨fun hsafe => .inr (.inr (.inr ⟨rfl, hsafe⟩)), ?_⟩
    rintro (hnot | hlen | ⟨hok, -⟩ | ⟨-, hsafe⟩)
    · exact absurd hgranted hnot
    · exact absurd hlen hlong
    · cases hok
    · exact hsafe

/-- **The bytes reach the application, and the blocks are freed, exactly when** the call is safe. -/
theorem scatter_call_right_iff (grants : ℕ → Bool) (junk : ℕ → ℕ → Option SharePtr) (c : ScatterCall) :
    ScatterCallRight (ShareHeap.start grants junk) c ↔ ScatterCallSafe (ShareHeap.start grants junk) c := by
  cases c with
  | readv lens n ok => exact readv_right_iff grants junk lens n ok
  | recvmsg ndebug msg_name msg_control lens n ok msg_namelen msg_controllen =>
    exact recvmsg_right_iff grants junk ndebug msg_name msg_control lens n ok msg_namelen msg_controllen

/-- One byte into one buffer of two. -/
theorem not_scatter_call_right :
    ¬∀ grants junk c, ScatterCallRight (ShareHeap.start grants junk) c := by
  intro hright
  have hr := hright (fun _ => true) (fun _ _ => none) (.readv [2] 1 true) (fun _ _ => 0) [[7, 7]] [1] rfl rfl
  rcases hr with hended | ⟨-, hperm, -⟩
  · exact absurd hended (by decide)
  · have hmem : (⟨1, 1⟩ : SharePtr) ∈
        (ffHookReadv (ShareHeap.start (fun _ => true) fun _ _ => none) (fun _ _ => 0) [[7, 7]]
          ⟨[1], true, 0, 0⟩).heap.allocated := hperm.subset (by decide)
    exact absurd hmem (by decide)

end FStack.Analysis
