import FStack.Model.ZeroCopy
import Mathlib.Data.List.Induction

/-!
# Assembling a chain for zero-copy sending

`ff_zc_mbuf_write` appends to the chain at a cursor that stays on the mbuf written last.  The mbufs
behind the cursor are empty and the room from the cursor on is enough for the rest of `len`, so a
write that passes the length check is stored as a whole (`ffZcMbufWriteLoop_spec`).

A write with a negative length or without data is refused by the argument check.  For the others the
length check compares `off + len` with the chain's length; the sum is an `int`, and when it
overflows the check lets the write through.  `zcSendRun_assembles_iff` is the exact statement.
-/

set_option autoImplicit false

namespace FStack.Analysis

open FStack.Model

variable {α : Type}
variable {zm : ZcSend α} {r : ZcSendRun α} {w : ZcWrite α}

/-- The bytes in a chain. -/
def contents (mbufs : List (ZcMbuf α)) : List α := mbufs.flatMap ZcMbuf.data

/-- The room left in a chain. -/
def room (mbufs : List (ZcMbuf α)) : ℕ := (mbufs.map ZcMbuf.trailing).sum

/-- What `m_getm2` returns for `max(len, 1)` bytes: an empty chain with room for them. -/
structure GetmChain (len : Int32) (chain : List (ZcMbuf α)) : Prop where
  empty : ∀ m ∈ chain, m.data = []
  room_ge : max len.toInt 1 ≤ room chain

/-- A write is outside what the argument check lets pass. -/
def BadArgument (w : ZcWrite α) : Prop := w.data = none ∨ w.len.toInt < 0

/-- A write does what it should on a chain: it is refused and changes nothing, or it is stored whole;
and it is refused if its arguments are bad or it would exceed the length of the chain, and not
otherwise. -/
def WritesWhole (zm : ZcSend α) (w : ZcWrite α) : Prop :=
  let p := ffZcMbufWrite zm w.data w.len
  (p.2 = -1 ∧ p.1 = zm ∨
    p.2 = w.len.toInt ∧ contents p.1.bsd_mbuf = contents zm.bsd_mbuf ++ w.bytes) ∧
  (p.2 = -1 ↔ BadArgument w ∨ zm.len < (contents zm.bsd_mbuf).length + w.len.toInt)

/-- The chain holds the accepted bytes, and all lengths agree. -/
def Assembled (r : ZcSendRun α) : Prop :=
  contents r.zm.bsd_mbuf = r.accepted ∧ r.zm.pkthdr_len = r.accepted.length ∧
    r.zm.off = r.accepted.length ∧ r.zm.off ≤ r.zm.len

/-- In every state of the run the chain is assembled, and every write does what it should. -/
def Assembles (zm : ZcSend α) (ws : List (ZcWrite α)) : Prop :=
  (∀ pre, pre <+: ws → Assembled (zcSendRun zm pre)) ∧
    ∀ pre w, pre ++ [w] <+: ws → WritesWhole (zcSendRun zm pre).zm w

/-- The sum in the length check fits in an `int`. -/
def SumFits (zm : ZcSend α) (w : ZcWrite α) : Prop :=
  BadArgument w ∨ (contents zm.bsd_mbuf).length + w.len.toInt < 2 ^ 31

/-! ## The loop -/

theorem bufBytes_length (data : ℕ → α) (a n : ℕ) : (bufBytes data a n).length = n := by
  simp [bufBytes]

theorem bufBytes_zero (data : ℕ → α) (a : ℕ) : bufBytes data a 0 = [] := rfl

theorem bufBytes_add (data : ℕ → α) (a n k : ℕ) :
    bufBytes data a (n + k) = bufBytes data a n ++ bufBytes data (a + n) k := by
  simp [bufBytes, List.range_add, Function.comp_def, Nat.add_assoc]

/-- The mbufs behind the `mb`-th are empty. -/
def EmptyBehind (mbufs : List (ZcMbuf α)) (mb : ℕ) : Prop :=
  ∀ m ∈ mbufs.drop (mb + 1), m.data = []

theorem contents_eq_nil {mbufs : List (ZcMbuf α)} (h : ∀ m ∈ mbufs, m.data = []) :
    contents mbufs = [] := by
  simpa [contents, List.flatMap_eq_nil_iff] using h

/-- What the mbuf at the cursor becomes; nothing is stored in a full one.
SOURCE: lib/ff_veth.c:347-352 -/
theorem ffZcMbufWrite_mbuf (data : ℕ → α) (m : ZcMbuf α) (progress length : ℕ) :
    (if 0 < length then (⟨m.data ++ bufBytes data progress length, m.trailing - length⟩ : ZcMbuf α)
      else m) = ⟨m.data ++ bufBytes data progress length, m.trailing - length⟩ := by
  split
  · rfl
  · have h0 : length = 0 := by omega
    subst h0
    simp [bufBytes_zero]

@[simp] theorem contents_cons (m : ZcMbuf α) (mbufs : List (ZcMbuf α)) :
    contents (m :: mbufs) = m.data ++ contents mbufs := rfl

@[simp] theorem room_cons (m : ZcMbuf α) (mbufs : List (ZcMbuf α)) :
    room (m :: mbufs) = m.trailing + room mbufs := by
  simp [room]

/-- The loop stores all that is asked for when there is room for it, behind what the mbufs hold.
SOURCE: lib/ff_veth.c:346-356 -/
theorem ffZcMbufWriteLoop_spec (data : ℕ → α) (len : ℕ) (mbufs : List (ZcMbuf α)) (progress : ℕ)
    (hempty : EmptyBehind mbufs 0) (hlt : progress < len) (hroom : len - progress ≤ room mbufs) :
    let r := ffZcMbufWriteLoop data len mbufs progress
    r.progress = len ∧ r.mb < r.mbufs.length ∧
      contents r.mbufs = contents mbufs ++ bufBytes data progress (len - progress) ∧
      EmptyBehind r.mbufs r.mb ∧ room (r.mbufs.drop r.mb) + (len - progress) = room mbufs := by
  induction mbufs generalizing progress with
  | nil =>
    simp only [room, List.map_nil, List.sum_nil] at hroom
    omega
  | cons m next ih =>
    have hnext : ∀ m' ∈ next, m'.data = [] := by simpa [EmptyBehind] using hempty
    rw [room_cons] at hroom
    simp only [ffZcMbufWriteLoop, ffZcMbufWrite_mbuf]
    by_cases hlast : len = progress + min m.trailing (len - progress)
    · -- the rest fits in this mbuf
      have hmin : min m.trailing (len - progress) = len - progress := by omega
      rw [if_pos hlast, hmin]
      refine ⟨by simp only; omega, by simp, ?_, by simpa [EmptyBehind] using hnext, ?_⟩
      · simp [contents_eq_nil hnext]
      · simp only [List.drop_zero, room_cons]
        omega
    · -- the mbuf is filled, and the rest goes to those behind it
      have hmin : min m.trailing (len - progress) = m.trailing := by omega
      rw [if_neg hlast, hmin]
      rw [hmin] at hlast
      have hbehind : EmptyBehind next 0 := fun m' hm' => hnext m' (List.mem_of_mem_drop hm')
      obtain ⟨hprog, hmb, hcont, hemp, hrm⟩ :=
        ih (progress + m.trailing) hbehind (by omega) (by omega)
      refine ⟨hprog, by simpa using hmb, ?_, hemp, ?_⟩
      · have hsplit : len - progress = m.trailing + (len - (progress + m.trailing)) := by omega
        rw [contents_cons, hcont, contents_cons, contents_eq_nil hnext, hsplit, bufBytes_add]
        simp
      · simp only [List.drop_succ_cons, room_cons]
        omega

/-! ## One write -/

/-- The state of a run that has gone well: the cursor is on an mbuf, the mbufs behind it are empty,
and from it on there is room for the rest of `len`. -/
structure SendInv (r : ZcSendRun α) : Prop where
  assembled : Assembled r
  cursor : r.zm.bsd_mbuf_off < r.zm.bsd_mbuf.length
  empty : EmptyBehind r.zm.bsd_mbuf r.zm.bsd_mbuf_off
  room_ge : r.zm.len ≤ r.accepted.length + room (r.zm.bsd_mbuf.drop r.zm.bsd_mbuf_off)
  len_lt : r.zm.len < 2 ^ 31

/-- A sum that fits in an `int` is the sum. -/
theorem int32_of_fits {x : ℤ} (h0 : 0 ≤ x) (hlt : x < 2 ^ 31) : int32 x = x := by
  unfold int32
  rw [Int.bmod_def]
  split <;> omega

/-- A sum of two lengths that does not fit in an `int` becomes negative. -/
theorem int32_of_overflow {x : ℤ} (hle : 2 ^ 31 ≤ x) (hlt : x < 2 ^ 32) : int32 x < 0 := by
  unfold int32
  rw [Int.bmod_def]
  split <;> omega

theorem int32_arg_range (len : Int32) : -2 ^ 31 ≤ len.toInt ∧ len.toInt < 2 ^ 31 :=
  ⟨Int32.le_toInt len, Int32.toInt_lt len⟩

theorem contents_take_drop (mbufs : List (ZcMbuf α)) (k : ℕ) :
    contents mbufs = contents (mbufs.take k) ++ contents (mbufs.drop k) := by
  rw [contents, contents, contents, ← List.flatMap_append, List.take_append_drop]

/-- A write with bad arguments is refused.
SOURCE: lib/ff_veth.c:334-336 -/
theorem ffZcMbufWrite_bad {zm : ZcSend α} {w : ZcWrite α} (h : BadArgument w) :
    ffZcMbufWrite zm w.data w.len = (zm, -1) := by
  unfold ffZcMbufWrite
  rcases h with hnull | hneg
  · rw [hnull]
  · cases w.data with
    | none => rfl
    | some data => simp only [hneg, if_true]

/-- What a write that passes both checks leaves behind.
SOURCE: lib/ff_veth.c:346-367 -/
theorem ffZcMbufWrite_pass {data : ℕ → α} {len : Int32} (hpos : 0 < len.toInt)
    (hcheck : int32 (zm.off + len.toInt) ≤ zm.len) :
    ffZcMbufWrite zm (some data) len =
      let r := ffZcMbufWriteLoop data len.toInt.toNat (zm.bsd_mbuf.drop zm.bsd_mbuf_off) 0
      ({ zm with
          bsd_mbuf := zm.bsd_mbuf.take zm.bsd_mbuf_off ++ r.mbufs
          bsd_mbuf_off := zm.bsd_mbuf_off + r.mb
          pkthdr_len := int32 (zm.pkthdr_len + r.progress)
          off := int32 (zm.off + r.progress) }, (r.progress : ℤ)) := by
  unfold ffZcMbufWrite
  dsimp only
  rw [if_neg (by omega), if_neg (by omega), if_neg (by omega)]

/-- `bytes` are stored behind what a chain holds, and its lengths and its cursor moved with them. -/
structure BytesStored (zm zm' : ZcSend α) (bytes : List α) : Prop where
  contents_eq : contents zm'.bsd_mbuf = contents zm.bsd_mbuf ++ bytes
  cursor : zm'.bsd_mbuf_off < zm'.bsd_mbuf.length
  empty : EmptyBehind zm'.bsd_mbuf zm'.bsd_mbuf_off
  room_eq : room (zm'.bsd_mbuf.drop zm'.bsd_mbuf_off) + bytes.length =
    room (zm.bsd_mbuf.drop zm.bsd_mbuf_off)
  pkthdr_len_eq : zm'.pkthdr_len = zm.pkthdr_len + bytes.length
  off_eq : zm'.off = zm.off + bytes.length
  len_eq : zm'.len = zm.len

/-- Behind the mbufs that the loop does not visit stand those that it leaves. -/
theorem drop_take_append (mbufs mbufs' : List (ZcMbuf α)) {k : ℕ} (hk : k < mbufs.length) (j : ℕ) :
    (mbufs.take k ++ mbufs').drop (k + j) = mbufs'.drop j := by
  have htake : (mbufs.take k).length = k := by
    rw [List.length_take]
    omega
  rw [List.drop_append, htake, List.drop_eq_nil_of_le (by omega), List.nil_append]
  congr 1
  omega

/-- A write of a positive length that fits, on a chain in order, is stored whole.
SOURCE: lib/ff_veth.c:346-367 -/
theorem SendInv.write_stored {r : ZcSendRun α} {data : ℕ → α} {len : Int32} (h : SendInv r)
    (hpos : 0 < len.toInt) (hfits : r.accepted.length + len.toInt ≤ r.zm.len) :
    (ffZcMbufWrite r.zm (some data) len).2 = len.toInt ∧
      BytesStored r.zm (ffZcMbufWrite r.zm (some data) len).1 (bufBytes data 0 len.toInt.toNat) := by
  obtain ⟨-, hpkt, hoff, -⟩ := h.assembled
  have hlen := h.len_lt
  have hroom := h.room_ge
  have hsum : int32 (r.zm.off + len.toInt) = r.zm.off + len.toInt :=
    int32_of_fits (by omega) (by omega)
  have hbehind : EmptyBehind (r.zm.bsd_mbuf.drop r.zm.bsd_mbuf_off) 0 := by
    intro m hm
    rw [List.drop_drop] at hm
    exact h.empty m hm
  obtain ⟨hprog, hmb, hstored, hemp, hrm⟩ := ffZcMbufWriteLoop_spec data len.toInt.toNat
    (r.zm.bsd_mbuf.drop r.zm.bsd_mbuf_off) 0 hbehind (by omega) (by omega)
  rw [ffZcMbufWrite_pass hpos (by omega)]
  generalize ffZcMbufWriteLoop data len.toInt.toNat (r.zm.bsd_mbuf.drop r.zm.bsd_mbuf_off) 0 = l at *
  have hret : (l.progress : ℤ) = len.toInt := by omega
  have hdrop := drop_take_append r.zm.bsd_mbuf l.mbufs h.cursor
  rw [Nat.sub_zero] at hstored
  refine ⟨hret, ?_, ?_, ?_, ?_, ?_, ?_, rfl⟩
  · rw [contents_take_drop r.zm.bsd_mbuf r.zm.bsd_mbuf_off, List.append_assoc, ← hstored]
    simp only [contents, List.flatMap_append]
  · have hcursor := h.cursor
    simp only [List.length_append, List.length_take]
    omega
  · simp only [EmptyBehind, Nat.add_assoc, hdrop]
    exact hemp
  · simp only [hdrop, bufBytes_length]
    omega
  · simp only [bufBytes_length]
    rw [int32_of_fits (by omega) (by omega)]
    omega
  · simp only [bufBytes_length]
    rw [int32_of_fits (by omega) (by omega)]
    omega

/-- Bytes that are stored within the length of a chain leave it in order. -/
theorem SendInv.of_stored {zm' : ZcSend α} {bytes : List α} (h : SendInv r)
    (hstored : BytesStored r.zm zm' bytes) (hfits : (r.accepted.length + bytes.length : ℤ) ≤ r.zm.len) :
    SendInv ⟨zm', r.accepted ++ bytes⟩ := by
  obtain ⟨hcont, hpkt, hoff, hle⟩ := h.assembled
  have hroom := h.room_ge
  have hroom' := hstored.room_eq
  refine ⟨⟨?_, ?_, ?_, ?_⟩, hstored.cursor, hstored.empty, ?_, ?_⟩
  · rw [← hcont]
    exact hstored.contents_eq
  · rw [hstored.pkthdr_len_eq, List.length_append]
    omega
  · rw [hstored.off_eq, List.length_append]
    omega
  · rw [hstored.off_eq, hstored.len_eq]
    omega
  · dsimp only
    rw [hstored.len_eq, List.length_append]
    omega
  · rw [hstored.len_eq]
    exact h.len_lt

/-- A write of a positive length that fits, on a chain in order, is stored whole and leaves
the chain in order.
SOURCE: lib/ff_veth.c:346-367 -/
theorem SendInv.store {r : ZcSendRun α} {data : ℕ → α} {len : Int32} (h : SendInv r)
    (hpos : 0 < len.toInt) (hfits : r.accepted.length + len.toInt ≤ r.zm.len) :
    (ffZcMbufWrite r.zm (some data) len).2 = len.toInt ∧
      SendInv (r.write ⟨some data, len⟩) ∧
      (r.write ⟨some data, len⟩).accepted = r.accepted ++ bufBytes data 0 len.toInt.toNat := by
  obtain ⟨hret, hstored⟩ := @SendInv.write_stored α r data len h hpos hfits
  have hwrite : r.write ⟨some data, len⟩ =
      ⟨(ffZcMbufWrite r.zm (some data) len).1, r.accepted ++ bufBytes data 0 len.toInt.toNat⟩ := by
    simp only [ZcSendRun.write, ZcWrite.bytes]
    rw [if_neg (by omega)]
  refine ⟨hret, ?_, by rw [hwrite]⟩
  rw [hwrite]
  refine h.of_stored hstored ?_
  rw [bufBytes_length]
  omega

/-- A refused write changes nothing. -/
theorem ZcSendRun.write_refused (h : ffZcMbufWrite r.zm w.data w.len = (r.zm, -1)) : r.write w = r := by
  simp [ZcSendRun.write, h]

/-- A write on a chain in order does what it should if the sum in the check fits in an `int`, and
leaves the chain in order.
SOURCE: lib/ff_veth.c:328-368 -/
theorem SendInv.write (h : SendInv r) (hfit : SumFits r.zm w) :
    WritesWhole r.zm w ∧ SendInv (r.write w) := by
  obtain ⟨hcont, -, hoff, hle⟩ := h.assembled
  unfold SumFits at hfit
  unfold WritesWhole
  rw [hcont] at hfit ⊢
  by_cases hbad : BadArgument w
  · have hw := @ffZcMbufWrite_bad α r.zm w hbad
    rw [ZcSendRun.write_refused hw, hw]
    exact ⟨⟨.inl ⟨rfl, rfl⟩, by simp [hbad]⟩, h⟩
  have hsum := hfit.resolve_left hbad
  obtain ⟨data, len⟩ := w
  have hneg : 0 ≤ len.toInt := by
    by_contra hlt
    exact hbad (.inr (by simpa using hlt))
  cases data with
  | none => exact absurd (.inl rfl) hbad
  | some data =>
    simp only at hsum ⊢
    by_cases h0 : len.toInt = 0
    · -- nothing to store
      have hw : ffZcMbufWrite r.zm (some data) len = (r.zm, 0) := by
        simp [ffZcMbufWrite, h0]
      have hsame : r.write ⟨some data, len⟩ = r := by
        simp [ZcSendRun.write, hw, ZcWrite.bytes, h0, bufBytes_zero]
      rw [hsame, hw]
      refine ⟨⟨.inr ⟨by simp [h0], by simp [ZcWrite.bytes, h0, bufBytes_zero, hcont]⟩, ?_⟩, h⟩
      simp only [hbad, false_or]
      omega
    by_cases hexceed : r.zm.len < r.accepted.length + len.toInt
    · -- refused
      have hcheck : int32 (r.zm.off + len.toInt) > r.zm.len := by
        rw [int32_of_fits (by omega) (by omega)]
        omega
      have hw : ffZcMbufWrite r.zm (some data) len = (r.zm, -1) := by
        unfold ffZcMbufWrite
        dsimp only
        rw [if_neg (by omega), if_neg h0, if_pos hcheck]
      have hsame : r.write ⟨some data, len⟩ = r := ZcSendRun.write_refused hw
      rw [hsame, hw]
      exact ⟨⟨.inl ⟨rfl, rfl⟩, by simp [hexceed]⟩, h⟩
    · obtain ⟨hret, hinv, hacc⟩ := @SendInv.store α r data len h (by omega) (by omega)
      refine ⟨⟨.inr ⟨hret, ?_⟩, ?_⟩, hinv⟩
      · have := hinv.assembled.1
        rw [hacc] at this
        exact this
      · rw [hret]
        simp only [hbad, hexceed, or_self, iff_false]
        omega

/-- When the sum overflows, the write is not refused, although it is too long.
SOURCE: lib/ff_veth.c:342-344 -/
theorem SendInv.sumFits (h : SendInv r) (hok : WritesWhole r.zm w) : SumFits r.zm w := by
  obtain ⟨hcont, -, hoff, hle⟩ := h.assembled
  have hlen := h.len_lt
  unfold WritesWhole at hok
  unfold SumFits
  rw [hcont] at hok ⊢
  by_contra hnot
  rw [not_or] at hnot
  obtain ⟨hbad, hover⟩ := hnot
  obtain ⟨data, len⟩ := w
  have hrange := int32_arg_range len
  simp only at hover hok
  have hrefused := hok.2.mpr (.inr (by omega))
  cases data with
  | none => exact hbad (.inl rfl)
  | some data =>
    have hneg := @int32_of_overflow (r.zm.off + len.toInt) (by omega) (by omega)
    rw [ffZcMbufWrite_pass (by omega) (by omega)] at hrefused
    simp only at hrefused
    omega

/-! ## Runs -/

theorem zcSendRun_append (zm : ZcSend α) (pre : List (ZcWrite α)) (w : ZcWrite α) :
    zcSendRun zm (pre ++ [w]) = (zcSendRun zm pre).write w := by
  simp [zcSendRun]

/-- The chain that `ff_zc_mbuf_get` hands over is in order.
SOURCE: lib/ff_veth.c:306-326 -/
theorem sendInv_get {len : Int32} {chain : List (ZcMbuf α)}
    (hget : ffZcMbufGet len (some chain) = some zm) (hchain : GetmChain len chain) :
    SendInv (zcSendRun zm []) := by
  have hroom := hchain.room_ge
  have hrange := int32_arg_range len
  unfold ffZcMbufGet at hget
  split at hget
  · cases hget
  · simp only [Option.some.injEq] at hget
    subst hget
    refine ⟨⟨contents_eq_nil hchain.empty, rfl, rfl, by simp only [zcSendRun, List.foldl_nil]; omega⟩,
      ?_, fun m hm => hchain.empty m (List.mem_of_mem_drop hm), ?_, ?_⟩
    · cases chain with
      | nil =>
        simp only [room, List.map_nil, List.sum_nil] at hroom
        omega
      | cons m next => simp [zcSendRun]
    · simp only [zcSendRun, List.foldl_nil, List.length_nil, List.drop_zero]
      omega
    · simp only [zcSendRun, List.foldl_nil]
      omega

/-- The chain stays in order as long as the sums fit. -/
theorem sendInv_run (h0 : SendInv (zcSendRun zm [])) (ws : List (ZcWrite α))
    (h : ∀ pre w, pre ++ [w] <+: ws → SumFits (zcSendRun zm pre).zm w) :
    SendInv (zcSendRun zm ws) := by
  induction ws using List.reverseRecOn with
  | nil => exact h0
  | append_singleton pre w ih =>
    have hpre := ih fun p v hp => h p v (hp.trans (List.prefix_append _ _))
    rw [zcSendRun_append]
    exact (hpre.write (h pre w (List.prefix_refl _))).2

/-- Every sequence of writes to a chain from `ff_zc_mbuf_get` assembles the accepted bytes, each write
being stored whole or refused, and refused for a bad argument or for exceeding the chain's length only,
if and only if the sums of the length check fit in an `int`.
SOURCE: lib/ff_veth.c:306-368 -/
theorem zcSendRun_assembles_iff (len : Int32) (chain : List (ZcMbuf α)) (zm : ZcSend α)
    (hchain : GetmChain len chain) (hget : ffZcMbufGet len (some chain) = some zm)
    (ws : List (ZcWrite α)) :
    Assembles zm ws ↔ ∀ pre w, pre ++ [w] <+: ws → SumFits (zcSendRun zm pre).zm w := by
  have h0 := sendInv_get hget hchain
  constructor
  · intro h
    induction ws using List.reverseRecOn with
    | nil =>
      intro pre w hpre
      simp at hpre
    | append_singleton ws v ih =>
      have hearlier := ih ⟨fun p hp => h.1 p (hp.trans (List.prefix_append _ _)),
        fun p w hp => h.2 p w (hp.trans (List.prefix_append _ _))⟩
      intro pre w hpre
      rcases List.prefix_concat_iff.mp hpre with heq | hpre'
      · obtain ⟨rfl, hv⟩ := List.append_inj' heq rfl
        obtain rfl : w = v := by simpa using hv
        exact (sendInv_run h0 pre hearlier).sumFits (h.2 pre w hpre)
      · exact hearlier pre w hpre'
  · intro h
    have hinv : ∀ pre, pre <+: ws → SendInv (zcSendRun zm pre) := fun pre hpre =>
      sendInv_run h0 pre fun p w hp => h p w (hp.trans hpre)
    refine ⟨fun pre hpre => (hinv pre hpre).assembled, fun pre w hpre => ?_⟩
    exact ((hinv pre ((List.prefix_append _ _).trans hpre)).write (h pre w hpre)).1

/-- A chain of two mbufs for four bytes, after `ff_zc_mbuf_get`. -/
def fourBytes : ZcSend ℕ := ⟨[⟨[], 1⟩, ⟨[], 3⟩], 0, 0, 0, 4⟩

/-- Three bytes, and then two more, which are one too many. -/
theorem zcSendRun_assembles_iff_fourBytes :
    GetmChain 4 fourBytes.bsd_mbuf ∧ ffZcMbufGet 4 (some fourBytes.bsd_mbuf) = some fourBytes ∧
      Assembles fourBytes [⟨some fun i => i, 3⟩, ⟨some fun i => i, 2⟩] := by
  have hchain : GetmChain 4 fourBytes.bsd_mbuf := ⟨by decide, by decide⟩
  have hget : ffZcMbufGet 4 (some fourBytes.bsd_mbuf) = some fourBytes := by decide
  refine ⟨hchain, hget, (zcSendRun_assembles_iff 4 _ fourBytes hchain hget _).mpr ?_⟩
  intro pre w hpre
  have hcases : pre = [] ∧ w = ⟨some fun i => i, 3⟩ ∨
      pre = [⟨some fun i => i, 3⟩] ∧ w = ⟨some fun i => i, 2⟩ := by
    cases pre with
    | nil =>
      left
      simpa using hpre
    | cons a l =>
      right
      have hlen := hpre.length_le
      obtain ⟨rfl, hpre'⟩ := List.cons_prefix_cons.mp hpre
      cases l with
      | nil => simpa using hpre'
      | cons b l => simp at hlen
  rcases hcases with ⟨rfl, rfl⟩ | ⟨rfl, rfl⟩
  · exact .inr (by decide)
  · exact .inr (by decide)

/-- A chain of one mbuf for one byte, after `ff_zc_mbuf_get`. -/
def oneByte : ZcSend ℕ := ⟨[⟨[], 1⟩], 0, 0, 0, 1⟩

/-- A write of length -1 is refused, although it exceeds nothing; and on a chain with one byte written,
a write of 2147483647 bytes exceeds the chain's length of one byte and is not refused. -/
theorem negativeWrite_refused :
    ffZcMbufGet 1 (some oneByte.bsd_mbuf) = some oneByte ∧
      ¬ ((ffZcMbufWrite oneByte (some fun i => i) (-1)).2 = -1 ↔
        oneByte.len < (contents oneByte.bsd_mbuf).length + (-1 : Int32).toInt) ∧
      ¬ ((ffZcMbufWrite (zcSendRun oneByte [⟨some fun i => i, 1⟩]).zm (some fun i => i)
          2147483647).2 = -1 ↔
        oneByte.len < (contents (zcSendRun oneByte [⟨some fun i => i, 1⟩]).zm.bsd_mbuf).length +
          (2147483647 : Int32).toInt) := by
  exact ⟨by decide, by decide, by decide⟩

end FStack.Analysis
