import FStack.Model.TcpCheckRecv
import FStack.Prelude.Monitored

/-!
# Receiving one message, however it is split

Both loops come to the same end however the bytes of the message arrive, but for two cases: the buffer of the caller is
full and the checker has announced a longer message, and a checker has set `msg_len_detected` without a length.
-/

set_option autoImplicit false

namespace FStack.Analysis

open FStack.Model FStack.Prelude

variable {σ : Type} {msg rest buf : List UInt8} {pass : RecvPass} {start_ms : ℕ} {timeout space : ℤ}

/-! ## What is expected -/

/-- A checker of the first function: on a proper prefix it says 0 or the length of the message, on the message its
length. -/
structure CallerChecks (func : σ → List UInt8 → ℤ × σ) (msg : List UInt8) : Prop where
  part : ∀ ctx part, part <+: msg → part ≠ [] → part ≠ msg →
    (func ctx part).1 = 0 ∨ (func ctx part).1 = msg.length
  whole : ∀ ctx, (func ctx msg).1 = msg.length

/-- A checker of the second function. -/
structure ContextChecks (check : MsgChecker σ) (msg : List UInt8) : Prop where
  part : ∀ ctx part detected, part <+: msg → part ≠ [] → part ≠ msg →
    (check ctx part false detected).rc = 0 ∨ (check ctx part false detected).rc = msg.length
  whole : ∀ ctx detected, (check ctx msg false detected).rc = msg.length

/-- Bytes arrive, within the time limit. -/
def BytesArrive (start_ms : ℕ) (timeout : ℤ) (pass : RecvPass) : Prop :=
  0 < pass.size ∧ pass.late start_ms timeout = false

/-- The first function has returned; if the buffer can hold the message, with success and the message. -/
def FixedDone (msg : List UInt8) (len : ℤ) (s : FixedRecv σ) : Prop :=
  s.ret.isSome ∧ (msg.length ≤ len → s.ret = some 0 ∧ s.len = msg.length ∧ s.buf = msg)

/-- The second function has returned with success and the message. -/
structure GrowDone (msg : List UInt8) (s : GrowRecv σ) : Prop where
  ret : s.ret = some 0
  len : s.len = msg.length
  buf : s.buf = msg
  kept : s.keep = true → s.rcv_buf = some msg

/-- What is expected of the first function in a run: it returns as it has to, and every receive is given space. -/
def FixedRight (func : σ → List UInt8 → ℤ × σ) (start_ms : ℕ) (timeout : ℤ) (msg : List UInt8) (ctx : σ) (len : ℤ)
    (passes : List RecvPass) : Prop :=
  FixedDone msg len (passes.foldl (FixedRecv.step func start_ms timeout) (.init msg ctx len)) ∧
    AllSteps (FixedRecv.step func start_ms timeout) (fun s _ => s.ret = none → 0 < s.space) (.init msg ctx len) passes

/-- What is expected of the second function in a run. -/
def GrowRight (check : MsgChecker σ) (start_ms : ℕ) (timeout : ℤ) (msg : List UInt8) (ctx : σ) (len : ℤ)
    (keep : Bool) (passes : List RecvPass) : Prop :=
  GrowDone msg (passes.foldl (GrowRecv.step check start_ms timeout) (.init msg ctx len keep)) ∧
    AllSteps (GrowRecv.step check start_ms timeout) (fun s _ => s.ret = none → 0 < s.space)
      (.init msg ctx len keep) passes

/-! ## The condition -/

/-- If a pass fills the buffer of the caller, the checker does not say that the message is longer. -/
def FixedSafe (func : σ → List UInt8 → ℤ × σ) (s : FixedRecv σ) (pass : RecvPass) : Prop :=
  s.ret = none → ∀ got ∈ pass.recv s.rest s.space, (s.buf ++ got).length = s.len →
    (func s.ctx (s.buf ++ got)).1 ≤ (s.buf ++ got).length

/-- If the checker is asked in a pass about a part of the message and says 0, it does not say that it has detected the
length. -/
def GrowSafe (check : MsgChecker σ) (s : GrowRecv σ) (pass : RecvPass) : Prop :=
  s.ret = none → ∀ got ∈ pass.recv s.rest s.space, (s.receive got).rest ≠ [] → s.msg_len_detected = false →
    (check s.ctx (s.buf ++ got) false false).rc = 0 → (check s.ctx (s.buf ++ got) false false).detected = false

/-! ## A receive -/

/-- With space, some of what the peer still sends arrives. -/
theorem recv_some (hsize : 0 < pass.size) (hspace : 0 < space) (hrest : rest ≠ []) :
    ∃ got, pass.recv rest space = some got ∧ got ≠ [] ∧ got ++ rest.drop got.length = rest ∧
      (got.length : ℤ) ≤ space := by
  refine ⟨rest.take (min pass.size space.toNat), ?_, ?_, ?_, ?_⟩
  · unfold RecvPass.recv
    rw [if_neg (by omega), if_neg (by omega), if_neg hrest]
  · have hlen := List.length_pos_of_ne_nil hrest
    apply List.ne_nil_of_length_pos
    rw [List.length_take]
    omega
  · rw [List.length_take]
    rcases le_total (min pass.size space.toNat) rest.length with hle | hge
    · rw [min_eq_left hle]
      exact List.take_append_drop _ rest
    · rw [min_eq_right hge, List.take_of_length_le hge, List.drop_length, List.append_nil]
  · rw [List.length_take]
    omega

/-- A part of a message. -/
theorem part_of_append (h : msg = buf ++ rest) (hbuf : buf ≠ []) :
    buf <+: msg ∧ buf ≠ [] ∧ (buf ≠ msg ↔ rest ≠ []) := by
  subst h
  refine ⟨List.prefix_append buf rest, hbuf, ?_⟩
  rw [Ne, List.self_eq_append_right]

/-! ## With the buffer of the caller -/

section Fixed

variable {func : σ → List UInt8 → ℤ × σ} {len : ℤ} {s : FixedRecv σ}

/-- Where the first loop goes on. -/
structure FixedInv (msg : List UInt8) (len : ℤ) (s : FixedRecv σ) : Prop where
  ret : s.ret = none
  split : msg = s.buf ++ s.rest
  rest : s.rest ≠ []
  space : 0 < s.space
  len : s.len = len

/-- Where the first loop has lost its way: it goes on with a full buffer. -/
def FixedLost (s : FixedRecv σ) : Prop := s.ret = none ∧ s.space = 0

/-- INTERNAL: A pass of the first loop with what has arrived.
SOURCE: mt_api.cpp:164-205 -/
theorem fixed_step (func : σ → List UInt8 → ℤ × σ) (hs : FixedInv msg len s) (hD : BytesArrive start_ms timeout pass) :
    ∃ got, pass.recv s.rest s.space = some got ∧ got ≠ [] ∧ got ++ s.rest.drop got.length = s.rest ∧
      ((s.buf ++ got).length : ℤ) ≤ len ∧
      s.step func start_ms timeout pass =
        let s' : FixedRecv σ :=
          ⟨s.rest.drop got.length, s.buf ++ got, (func s.ctx (s.buf ++ got)).2, len, none⟩
        let rc := (func s.ctx (s.buf ++ got)).1
        if rc < 0 then { s' with ret := some (-5) }
        else if rc = 0 then if len = (s.buf ++ got).length then { s' with ret := some (-6) } else s'
        else if rc > (s.buf ++ got).length then s'
        else { s' with len := rc, ret := some 0 } := by
  obtain ⟨got, hrecv, hne, hsplit, hle⟩ := recv_some hD.1 hs.space hs.rest
  refine ⟨got, hrecv, hne, hsplit, ?_, ?_⟩
  · unfold FixedRecv.space at hle
    rw [hs.len] at hle
    rw [List.length_append]
    omega
  · obtain ⟨first, got', rfl⟩ := List.exists_cons_of_ne_nil hne
    unfold FixedRecv.step
    rw [hrecv, hs.ret, hD.2, hs.len]
    rfl

theorem fixed_go (hchecks : CallerChecks func msg) (hs : FixedInv msg len s) (hD : BytesArrive start_ms timeout pass)
    (hsafe : FixedSafe func s pass) :
    FixedDone msg len (s.step func start_ms timeout pass) ∨
      FixedInv msg len (s.step func start_ms timeout pass) ∧
        (s.step func start_ms timeout pass).rest.length < s.rest.length := by
  obtain ⟨got, hrecv, hne, hsplit, hle, hstep⟩ := fixed_step func hs hD
  have hmsg : msg = (s.buf ++ got) ++ s.rest.drop got.length := by
    rw [List.append_assoc, hsplit]
    exact hs.split
  have hbuf : s.buf ++ got ≠ [] := fun h => hne (List.append_eq_nil_iff.mp h).2
  obtain ⟨hfront, -, hproper⟩ := part_of_append hmsg hbuf
  have hless : (s.rest.drop got.length).length < s.rest.length := by
    rw [List.length_drop]
    have := List.length_pos_of_ne_nil hne
    have := List.length_pos_of_ne_nil hs.rest
    omega
  have hfull := hsafe hs.ret got hrecv
  rw [hs.len] at hfull
  rw [hstep]
  dsimp only
  by_cases hall : s.rest.drop got.length = []
  · -- the message is there
    have hwhole : s.buf ++ got = msg := by rw [hmsg, hall, List.append_nil]
    have hrc := hchecks.whole s.ctx
    have hpos : (0 : ℤ) < msg.length := by
      rw [← hwhole]
      exact_mod_cast List.length_pos_of_ne_nil hbuf
    left
    rw [hwhole, hrc, if_neg (by omega), if_neg (by omega), if_neg (by omega)]
    exact ⟨rfl, fun _ => ⟨rfl, rfl, rfl⟩⟩
  · have hmore : ((s.buf ++ got).length : ℤ) < msg.length := by
      have hlength := congrArg List.length hmsg
      rw [List.length_append] at hlength
      have := List.length_pos_of_ne_nil hall
      omega
    have hnext (hroom : ((s.buf ++ got).length : ℤ) < len) :
        FixedInv msg len
          (⟨s.rest.drop got.length, s.buf ++ got, (func s.ctx (s.buf ++ got)).2, len, none⟩ : FixedRecv σ) :=
      ⟨rfl, hmsg, hall, Int.sub_pos.mpr hroom, rfl⟩
    rcases hchecks.part s.ctx (s.buf ++ got) hfront hbuf (hproper.mpr hall) with hrc | hrc
    · rw [hrc, if_neg (by decide), if_pos rfl]
      split
      next hfilled =>
        left
        refine ⟨rfl, fun hholds => ?_⟩
        omega
      next hroom => exact .inr ⟨hnext (by omega), hless⟩
    · right
      rw [hrc, if_neg (by omega), if_neg (by omega), if_pos hmore]
      refine ⟨hnext (lt_of_le_of_ne hle fun hfilled => ?_), hless⟩
      have := hfull hfilled
      omega

theorem fixed_off (hs : FixedInv msg len s) (hD : BytesArrive start_ms timeout pass)
    (hsafe : ¬ FixedSafe func s pass) : FixedLost (s.step func start_ms timeout pass) := by
  obtain ⟨got, hrecv, hne, hsplit, hle, hstep⟩ := fixed_step func hs hD
  unfold FixedSafe at hsafe
  push Not at hsafe
  obtain ⟨-, other, hother, hfull, hlong⟩ := hsafe
  cases Option.some.inj (hrecv.symm.trans hother)
  rw [hs.len] at hfull
  rw [hstep]
  dsimp only
  rw [if_neg (by omega), if_neg (by omega), if_pos hlong]
  exact ⟨rfl, Int.sub_eq_zero.mpr hfull.symm⟩

/-- The first loop with the buffer of the caller.
SOURCE: mt_api.cpp:150-208 -/
theorem fixed_right_iff (hmsg : msg ≠ []) {passes : List RecvPass}
    (hD : ∀ pass ∈ passes, BytesArrive start_ms timeout pass) (hcount : msg.length ≤ passes.length)
    (hchecks : CallerChecks func msg) (ctx : σ) (hlen : 1 ≤ len) :
    FixedRight func start_ms timeout msg ctx len passes ↔
      AllSteps (FixedRecv.step func start_ms timeout) (FixedSafe func) (.init msg ctx len) passes := by
  unfold FixedRight
  refine allSteps_settles_iff (I := FixedInv msg len) (G := FixedDone msg len) (B := FixedLost)
    (D := BytesArrive start_ms timeout) (P := fun s _ => s.ret = none → 0 < s.space) (μ := fun s => s.rest.length)
    (fun s _ hs _ => hs.space) (fun s pass hs hpass hsafe => fixed_go hchecks hs hpass hsafe)
    (fun s pass hs hpass hsafe => fixed_off hs hpass hsafe)
    (fun s hs => List.length_pos_of_ne_nil hs.rest) ?_ ?_ (s := FixedRecv.init msg ctx len)
    ⟨rfl, rfl, hmsg, ?_, rfl⟩ hD hcount
  · intro s pass hdone
    have hret : s.ret ≠ none := Option.isSome_iff_ne_none.mp hdone.1
    have hstay : s.step func start_ms timeout pass = s := by
      unfold FixedRecv.step
      rw [if_pos hdone.1]
    rw [hstay]
    exact ⟨hdone, fun hnone => absurd hnone hret, fun hnone => absurd hnone hret⟩
  · rintro s passes - ⟨hret, hspace⟩ ⟨hdone, hall⟩
    cases passes with
    | nil =>
      have := hdone.1
      rw [List.foldl_nil, hret] at this
      cases this
    | cons pass passes =>
      have := hall.1 hret
      omega
  · exact Int.sub_pos.mpr hlen

end Fixed

/-! ## With a buffer that grows -/

section Growing

variable {check : MsgChecker σ} {s : GrowRecv σ}

/-- Where the second loop goes on. -/
structure GrowInv (msg : List UInt8) (s : GrowRecv σ) : Prop where
  ret : s.ret = none
  split : msg = s.buf ++ s.rest
  rest : s.rest ≠ []
  space : 0 < s.space
  aligned : (4096 : ℤ) ∣ s.size
  detected : s.msg_len_detected = true → s.pkg_len = msg.length

/-- Where the second loop has lost its way: it does not ask the checker any more, and has no length. -/
structure GrowAdrift (msg : List UInt8) (s : GrowRecv σ) : Prop where
  detected : s.msg_len_detected = true
  pkg_len : s.pkg_len = 0
  buf : s.buf ≠ []
  split : msg = s.buf ++ s.rest
  space : 0 < s.space
  aligned : (4096 : ℤ) ∣ s.size

/-- The second loop has lost its way, or has returned without success. -/
def GrowLost (msg : List UInt8) (s : GrowRecv σ) : Prop :=
  s.ret ≠ some 0 ∧ (s.ret = none → GrowAdrift msg s)

theorem bufAlignSize_spec {x : ℤ} (hpos : 0 < x) (hle : x ≤ 2 ^ 31 - 4096) :
    x ≤ bufAlignSize x ∧ (4096 : ℤ) ∣ bufAlignSize x := by
  unfold bufAlignSize
  rw [Int.bmod_eq_of_le (by omega) (by omega)]
  omega

/-- INTERNAL: The buffer is made longer.
SOURCE: mt_api.cpp:675-704 -/
theorem alloc_grows {len_ len : ℤ} (hold : 0 ≤ len_) (hlt : len_ < len) (hle : len ≤ 2 ^ 31 - 4096) :
    (scopedBufAlloc len_ len).2 = 0 ∧ len ≤ (scopedBufAlloc len_ len).1 ∧
      (4096 : ℤ) ∣ (scopedBufAlloc len_ len).1 := by
  obtain ⟨hge, hdvd⟩ := bufAlignSize_spec (by omega) hle
  have hform : scopedBufAlloc len_ len = (bufAlignSize len, 0) := by
    unfold scopedBufAlloc
    rw [if_neg (by omega), if_neg (show ¬ len = 0 by omega)]
    dsimp only
    rw [if_neg (by omega), if_neg (by omega), if_neg (by omega)]
  rw [hform]
  exact ⟨rfl, hge, hdvd⟩

/-- INTERNAL: The buffer of the loop is made longer.
SOURCE: mt_api.cpp:819-825, 836-842 -/
theorem grow_spec (hsize : 0 < s.size) (len : ℤ) (hlt : s.size < len) (hle : len ≤ 2 ^ 31 - 4096) :
    ∃ size, len ≤ size ∧ (4096 : ℤ) ∣ size ∧ s.grow len = { s with size := size, ret := none } := by
  obtain ⟨hok, hge, hdvd⟩ := alloc_grows hsize.le hlt hle
  refine ⟨_, hge, hdvd, ?_⟩
  unfold GrowRecv.grow
  rw [← Prod.mk.eta (p := scopedBufAlloc s.size len), hok]
  rfl

/-- INTERNAL: The first buffer.
SOURCE: mt_api.cpp:751-758 -/
theorem alloc_first (len : BitVec 32) :
    ((scopedBufAlloc 0 len.toInt).2 = 0 ↔ 0 ≤ len.toInt ∧ len.toInt ≤ 2 ^ 31 - 4096) ∧
      ((scopedBufAlloc 0 len.toInt).2 = 0 →
        0 < (scopedBufAlloc 0 len.toInt).1 ∧ (4096 : ℤ) ∣ (scopedBufAlloc 0 len.toInt).1) := by
  have hlt := BitVec.toInt_lt (x := len)
  generalize len.toInt = n at *
  rcases lt_trichotomy n 0 with hneg | rfl | hpos
  · have hform : scopedBufAlloc 0 n = (0, -1) := if_pos hneg
    rw [hform]
    exact ⟨iff_of_false (by decide) (by omega), fun h => absurd h (by decide)⟩
  · exact ⟨by decide, by decide⟩
  · by_cases hle : n ≤ 2 ^ 31 - 4096
    · obtain ⟨hret, hge, hdvd⟩ := alloc_grows (le_refl (0 : ℤ)) hpos hle
      exact ⟨iff_of_true hret ⟨hpos.le, hle⟩, fun _ => ⟨by omega, hdvd⟩⟩
    · -- the length that is aligned up does not fit into an `int`
      have halign : bufAlignSize n = -2 ^ 31 := by
        have hup : (n + 4095) / 4096 * 4096 = 2 ^ 31 := by omega
        unfold bufAlignSize
        rw [hup]
        decide
      have hform : scopedBufAlloc 0 n = (-2 ^ 31, -2) := by
        unfold scopedBufAlloc
        rw [if_neg (by omega), if_neg (show ¬ n = 0 by omega)]
        dsimp only
        rw [if_neg (by omega), halign]
        decide
      rw [hform]
      exact ⟨iff_of_false (by decide) fun h => hle h.2, fun h => absurd h (by decide)⟩

/-- INTERNAL: A pass of the second loop with what has arrived.
SOURCE: mt_api.cpp:770-806 -/
theorem grow_step (check : MsgChecker σ) (hret : s.ret = none) (hrest : s.rest ≠ []) (hspace : 0 < s.space)
    (hD : BytesArrive start_ms timeout pass) :
    ∃ got, pass.recv s.rest s.space = some got ∧ got ≠ [] ∧ got ++ s.rest.drop got.length = s.rest ∧
      ((s.buf ++ got).length : ℤ) ≤ s.size ∧
      s.step check start_ms timeout pass =
        ((s.receive got).check check).1.goOn ((s.receive got).check check).2 := by
  obtain ⟨got, hrecv, hne, hsplit, hle⟩ := recv_some hD.1 hspace hrest
  refine ⟨got, hrecv, hne, hsplit, ?_, ?_⟩
  · unfold GrowRecv.space at hle
    rw [List.length_append]
    omega
  · obtain ⟨first, got', rfl⟩ := List.exists_cons_of_ne_nil hne
    unfold GrowRecv.step
    rw [hrecv, hret, hD.2]
    rfl

/-- INTERNAL: The loop goes on: there is space, or the buffer is made longer.
SOURCE: mt_api.cpp:808-842 -/
theorem goOn_part (rc : ℤ) (hmax : msg.length < 2 ^ 30) (hret : s.ret = none) (hsplit : msg = s.buf ++ s.rest)
    (hrest : s.rest ≠ []) (hsize : 0 < s.size) (hle : (s.buf.length : ℤ) ≤ s.size) (haligned : (4096 : ℤ) ∣ s.size)
    (hdetected : s.msg_len_detected = true → s.pkg_len = msg.length) (hrc : rc = 0 ∨ rc = msg.length) :
    GrowInv msg (s.goOn rc) ∧ (s.goOn rc).rest = s.rest := by
  have hless : s.buf.length < msg.length := by
    have hlength := congrArg List.length hsplit
    rw [List.length_append] at hlength
    have := List.length_pos_of_ne_nil hrest
    omega
  have hgrow {len : ℤ} (hlt : s.size < len) (hmaxlen : len ≤ 2 ^ 31 - 4096) :
      GrowInv msg (s.grow len) ∧ (s.grow len).rest = s.rest := by
    obtain ⟨size, hge, hdvd, heq⟩ := grow_spec hsize len hlt hmaxlen
    rw [heq]
    exact ⟨⟨rfl, hsplit, hrest, Int.sub_pos.mpr (by dsimp only; omega), hdvd, hdetected⟩, rfl⟩
  have hstay (hroom : s.size > s.buf.length) : GrowInv msg s :=
    ⟨hret, hsplit, hrest, Int.sub_pos.mpr hroom, haligned, hdetected⟩
  unfold GrowRecv.goOn
  rcases hrc with rfl | rfl
  · rw [if_neg (by decide), if_pos rfl]
    split
    next hroom => exact ⟨hstay hroom, rfl⟩
    next hfull =>
      have hdouble : (2 * s.size).bmod (2 ^ 32) = 2 * s.size := Int.bmod_eq_of_le (by omega) (by omega)
      rw [hdouble]
      exact hgrow (by omega) (by omega)
  · rw [if_neg (by omega), if_neg (by omega), if_pos (by omega)]
    split
    next hroom => exact ⟨hstay hroom, rfl⟩
    next hfull => exact hgrow (by omega) (by omega)

/-- The checker is asked. -/
theorem check_asked (h : s.msg_len_detected = false ∨ (s.buf.length : ℤ) = s.pkg_len) :
    s.check check =
      ({ s with
          ctx := (check s.ctx s.buf false s.msg_len_detected).ctx
          msg_len_detected := (check s.ctx s.buf false s.msg_len_detected).detected
          pkg_len := if (check s.ctx s.buf false s.msg_len_detected).detected then
            (check s.ctx s.buf false s.msg_len_detected).rc else s.pkg_len },
        (check s.ctx s.buf false s.msg_len_detected).rc) := by
  unfold GrowRecv.check
  rw [if_pos (by simpa using h)]

/-- The checker is not asked: it has detected another length. -/
theorem check_known (h : s.msg_len_detected = true) (hne : (s.buf.length : ℤ) ≠ s.pkg_len) :
    s.check check = (s, s.pkg_len) := by
  unfold GrowRecv.check
  rw [if_neg (by simpa [h] using hne)]

theorem grow_go (hmax : msg.length < 2 ^ 30) (hchecks : ContextChecks check msg) (hs : GrowInv msg s)
    (hD : BytesArrive start_ms timeout pass) (hsafe : GrowSafe check s pass) :
    GrowDone msg (s.step check start_ms timeout pass) ∨
      GrowInv msg (s.step check start_ms timeout pass) ∧
        (s.step check start_ms timeout pass).rest.length < s.rest.length := by
  obtain ⟨got, hrecv, hne, hsplit, hle, hstep⟩ := grow_step check hs.ret hs.rest hs.space hD
  have hmsg : msg = (s.buf ++ got) ++ s.rest.drop got.length := by
    rw [List.append_assoc, hsplit]
    exact hs.split
  have hbuf : s.buf ++ got ≠ [] := fun h => hne (List.append_eq_nil_iff.mp h).2
  obtain ⟨hfront, -, hproper⟩ := part_of_append hmsg hbuf
  have hpos := List.length_pos_of_ne_nil hbuf
  have hlength := congrArg List.length hmsg
  rw [List.length_append] at hlength
  have hless : (s.rest.drop got.length).length < s.rest.length := by
    rw [List.length_drop]
    have := List.length_pos_of_ne_nil hne
    have := List.length_pos_of_ne_nil hs.rest
    omega
  rw [hstep]
  by_cases hall : s.rest.drop got.length = []
  · -- the message is there, and the checker is asked about it
    have hwhole : s.buf ++ got = msg := by rw [hmsg, hall, List.append_nil]
    have hask : (s.receive got).msg_len_detected = false ∨
        ((s.receive got).buf.length : ℤ) = (s.receive got).pkg_len := by
      cases hdet : s.msg_len_detected with
      | false => exact .inl hdet
      | true => exact .inr (by rw [show (s.receive got).buf = msg from hwhole]; exact (hs.detected hdet).symm)
    have hrc := hchecks.whole (s.receive got).ctx (s.receive got).msg_len_detected
    rw [check_asked hask, show (s.receive got).buf = msg from hwhole]
    dsimp only
    rw [hrc]
    rw [hwhole] at hpos
    left
    unfold GrowRecv.goOn
    dsimp only
    rw [if_neg (by omega), if_neg (by omega), if_neg (by omega), if_pos rfl]
    exact ⟨rfl, rfl, rfl, fun hkeep => if_pos hkeep⟩
  · right
    have hmore : ((s.buf ++ got).length : ℤ) ≠ msg.length := by
      have := List.length_pos_of_ne_nil hall
      omega
    have hsize : 0 < s.size := by omega
    cases hdet : s.msg_len_detected with
    | true =>
      have hpkg := hs.detected hdet
      rw [check_known (s := s.receive got) hdet (by
        rw [show (s.receive got).pkg_len = msg.length from hpkg]
        exact hmore)]
      obtain ⟨hinv, hrest⟩ := goOn_part (s := s.receive got) (s.receive got).pkg_len hmax hs.ret hmsg hall
        hsize hle hs.aligned hs.detected (.inr hpkg)
      rw [hrest]
      exact ⟨hinv, hless⟩
    | false =>
      rw [check_asked (s := s.receive got) (.inl hdet)]
      have hrc := hchecks.part s.ctx (s.buf ++ got) false hfront hbuf (hproper.mpr hall)
      have hflag := hsafe hs.ret got hrecv hall hdet
      have hdet' : (s.receive got).msg_len_detected = false := hdet
      rw [hdet']
      have hknown : (check s.ctx (s.buf ++ got) false false).detected = true →
          (if (check s.ctx (s.buf ++ got) false false).detected then (check s.ctx (s.buf ++ got) false false).rc
            else s.pkg_len) = msg.length := by
        intro hset
        rw [if_pos hset]
        refine hrc.resolve_left fun hzero => ?_
        rw [hflag hzero] at hset
        cases hset
      obtain ⟨hinv, hrest⟩ := goOn_part
        (s := { s.receive got with
          ctx := (check s.ctx (s.buf ++ got) false false).ctx
          msg_len_detected := (check s.ctx (s.buf ++ got) false false).detected
          pkg_len := if (check s.ctx (s.buf ++ got) false false).detected then
            (check s.ctx (s.buf ++ got) false false).rc else s.pkg_len })
        (check s.ctx (s.buf ++ got) false false).rc hmax hs.ret hmsg hall hsize hle hs.aligned hknown hrc
      refine ⟨hinv, ?_⟩
      exact (congrArg List.length hrest).trans_lt hless

/-- INTERNAL: Without a length and without the checker, the loop goes on.
SOURCE: mt_api.cpp:803-825 -/
theorem grow_lost_goOn (hmax : msg.length < 2 ^ 30) (hret : s.ret = none) (hdet : s.msg_len_detected = true)
    (hpkg : s.pkg_len = 0) (hbuf : s.buf ≠ []) (hsplit : msg = s.buf ++ s.rest) (hle : (s.buf.length : ℤ) ≤ s.size)
    (haligned : (4096 : ℤ) ∣ s.size) : GrowLost msg (s.goOn 0) := by
  have hpos := List.length_pos_of_ne_nil hbuf
  have hlength := congrArg List.length hsplit
  rw [List.length_append] at hlength
  unfold GrowRecv.goOn
  rw [if_neg (by decide), if_pos rfl]
  split
  next hroom => exact ⟨by rw [hret]; exact nofun, fun _ => ⟨hdet, hpkg, hbuf, hsplit, Int.sub_pos.mpr hroom, haligned⟩⟩
  next hfull =>
    have hdouble : (2 * s.size).bmod (2 ^ 32) = 2 * s.size := Int.bmod_eq_of_le (by omega) (by omega)
    obtain ⟨size, hge, hdvd, heq⟩ := grow_spec (s := s) (by omega) (2 * s.size) (by omega) (by omega)
    rw [hdouble, heq]
    exact ⟨nofun, fun _ => ⟨hdet, hpkg, hbuf, hsplit, Int.sub_pos.mpr (by dsimp only; omega), hdvd⟩⟩

theorem grow_lost_step (hmax : msg.length < 2 ^ 30) (hlost : GrowLost msg s) (hD : BytesArrive start_ms timeout pass) :
    GrowLost msg (s.step check start_ms timeout pass) := by
  by_cases hret : s.ret = none
  · have hadrift := hlost.2 hret
    by_cases hrest : s.rest = []
    · -- all has arrived, and the loop waits for more
      have hnone : pass.recv s.rest s.space = none := by
        unfold RecvPass.recv
        rw [if_neg (not_lt.mpr hadrift.space), if_neg (Nat.ne_of_gt hD.1), if_pos hrest]
      unfold GrowRecv.step
      rw [hnone, hret, hD.2]
      exact ⟨by simp, by simp⟩
    · obtain ⟨got, -, hne, hsplit, hle, hstep⟩ := grow_step check hret hrest hadrift.space hD
      have hbuf : s.buf ++ got ≠ [] := fun h => hne (List.append_eq_nil_iff.mp h).2
      have hpos := List.length_pos_of_ne_nil hbuf
      have hknown : ((s.receive got).buf.length : ℤ) ≠ (s.receive got).pkg_len := by
        rw [show (s.receive got).pkg_len = 0 from hadrift.pkg_len, show (s.receive got).buf = s.buf ++ got from rfl]
        omega
      have hmsg : msg = (s.receive got).buf ++ (s.receive got).rest := by
        change msg = (s.buf ++ got) ++ s.rest.drop got.length
        rw [List.append_assoc, hsplit]
        exact hadrift.split
      rw [hstep, check_known (s := s.receive got) hadrift.detected hknown,
        show (s.receive got).pkg_len = 0 from hadrift.pkg_len]
      exact grow_lost_goOn (s := s.receive got) hmax hret hadrift.detected hadrift.pkg_len hbuf hmsg hle
        hadrift.aligned
  · have hstay : s.step check start_ms timeout pass = s := by
      unfold GrowRecv.step
      rw [if_pos (Option.isSome_iff_ne_none.mpr hret)]
    rw [hstay]
    exact hlost

theorem grow_off (hmax : msg.length < 2 ^ 30) (hs : GrowInv msg s) (hD : BytesArrive start_ms timeout pass)
    (hsafe : ¬ GrowSafe check s pass) : GrowLost msg (s.step check start_ms timeout pass) := by
  obtain ⟨got, hrecv, hne, hsplit, hle, hstep⟩ := grow_step check hs.ret hs.rest hs.space hD
  unfold GrowSafe at hsafe
  push Not at hsafe
  obtain ⟨-, other, hother, hmore, hdet, hzero, hset⟩ := hsafe
  cases Option.some.inj (hrecv.symm.trans hother)
  rw [Bool.ne_false_iff] at hset
  have hmsg : msg = (s.buf ++ got) ++ s.rest.drop got.length := by
    rw [List.append_assoc, hsplit]
    exact hs.split
  have hdet' : (s.receive got).msg_len_detected = false := hdet
  rw [hstep, check_asked (s := s.receive got) (.inl hdet), hdet']
  have hbuf : s.buf ++ got ≠ [] := fun h => hne (List.append_eq_nil_iff.mp h).2
  have hzero' : (check (s.receive got).ctx (s.receive got).buf false false).rc = 0 := hzero
  have hset' : (check (s.receive got).ctx (s.receive got).buf false false).detected = true := hset
  dsimp only
  rw [hzero', hset', if_pos rfl]
  exact grow_lost_goOn (s := { s.receive got with
      ctx := (check (s.receive got).ctx (s.receive got).buf false false).ctx
      msg_len_detected := true
      pkg_len := 0 }) hmax hs.ret rfl rfl hbuf hmsg hle hs.aligned

/-- The second loop.
SOURCE: mt_api.cpp:738-862 -/
theorem grow_right_iff (hmsg : msg ≠ []) (hmax : msg.length < 2 ^ 30) {passes : List RecvPass}
    (hD : ∀ pass ∈ passes, BytesArrive start_ms timeout pass) (hcount : msg.length ≤ passes.length)
    (hchecks : ContextChecks check msg) (ctx : σ) (len : BitVec 32) (keep : Bool) :
    GrowRight check start_ms timeout msg ctx len.toInt keep passes ↔
      (0 ≤ len.toInt ∧ len.toInt ≤ 2 ^ 31 - 4096) ∧
        AllSteps (GrowRecv.step check start_ms timeout) (GrowSafe check) (.init msg ctx len.toInt keep) passes := by
  obtain ⟨hok, hspace⟩ := alloc_first len
  rw [← hok]
  unfold GrowRight
  by_cases hret : (scopedBufAlloc 0 len.toInt).2 = 0
  · rw [and_iff_right hret]
    obtain ⟨hpos, hdvd⟩ := hspace hret
    have hstart : GrowInv msg (.init msg ctx len.toInt keep) := by
      unfold GrowRecv.init
      rw [← Prod.mk.eta (p := scopedBufAlloc 0 len.toInt), hret]
      exact ⟨rfl, rfl, hmsg, Int.sub_pos.mpr hpos, hdvd, nofun⟩
    refine allSteps_settles_iff (I := GrowInv msg) (G := GrowDone msg) (B := GrowLost msg)
      (D := BytesArrive start_ms timeout) (P := fun s _ => s.ret = none → 0 < s.space) (μ := fun s => s.rest.length)
      (fun s _ hs _ => hs.space) (fun s pass hs hpass hsafe => grow_go hmax hchecks hs hpass hsafe)
      (fun s pass hs hpass hsafe => grow_off hmax hs hpass hsafe)
      (fun s hs => List.length_pos_of_ne_nil hs.rest) ?_ ?_ hstart hD ?_
    · intro s pass hdone
      have hne : s.ret ≠ none := by rw [hdone.ret]; exact nofun
      have hstay : s.step check start_ms timeout pass = s := by
        unfold GrowRecv.step
        rw [if_pos (Option.isSome_iff_ne_none.mpr hne)]
      rw [hstay]
      exact ⟨hdone, fun hnone => absurd hnone hne, fun hnone => absurd hnone hne⟩
    · intro s passes hpasses hlost
      rw [not_and]
      intro hdone
      exfalso
      induction passes generalizing s with
      | nil => exact hlost.1 hdone.ret
      | cons pass passes ih =>
        rw [List.forall_mem_cons] at hpasses
        exact ih _ hpasses.2 (grow_lost_step hmax hlost hpasses.1) hdone
    · have hrest : (GrowRecv.init msg ctx len.toInt keep).rest = msg := rfl
      rw [hrest]
      exact hcount
  · refine iff_of_false ?_ fun h => hret h.1
    rintro ⟨hdone, -⟩
    have hstart : (GrowRecv.init msg ctx len.toInt keep).ret = some (-11) := if_pos hret
    have hstay : ∀ (passes : List RecvPass) (s : GrowRecv σ), s.ret = some (-11) →
        (passes.foldl (GrowRecv.step check start_ms timeout) s).ret = some (-11) := by
      intro passes
      induction passes with
      | nil => exact fun s h => h
      | cons pass passes ih =>
        intro s h
        have heq : s.step check start_ms timeout pass = s := by
          unfold GrowRecv.step
          rw [if_pos (by rw [h]; rfl)]
        rw [List.foldl_cons, heq]
        exact ih s h
    have hend := hdone.ret
    rw [hstay passes _ hstart] at hend
    cases hend

end Growing

/-! ## Both -/

/-- Whatever way a message arrives, each of the two functions ends as it has to if and only if its condition holds.
SOURCE: mt_api.cpp:150-208, 738-862 -/
theorem check_recv_right_iff (hmsg : msg ≠ []) {passes : List RecvPass}
    (hD : ∀ pass ∈ passes, BytesArrive start_ms timeout pass) (hcount : msg.length ≤ passes.length) :
    (∀ (func : σ → List UInt8 → ℤ × σ) (ctx : σ) (len : ℤ), CallerChecks func msg → 1 ≤ len →
      (FixedRight func start_ms timeout msg ctx len passes ↔
        AllSteps (FixedRecv.step func start_ms timeout) (FixedSafe func) (.init msg ctx len) passes)) ∧
    (∀ (check : MsgChecker σ) (ctx : σ) (len : BitVec 32) (keep : Bool), ContextChecks check msg →
      msg.length < 2 ^ 30 →
      (GrowRight check start_ms timeout msg ctx len.toInt keep passes ↔
        (0 ≤ len.toInt ∧ len.toInt ≤ 2 ^ 31 - 4096) ∧
          AllSteps (GrowRecv.step check start_ms timeout) (GrowSafe check) (.init msg ctx len.toInt keep) passes)) :=
  ⟨fun _ ctx _ hchecks hlen => fixed_right_iff hmsg hD hcount hchecks ctx hlen,
    fun _ ctx len keep hchecks hmax => grow_right_iff hmsg hmax hD hcount hchecks ctx len keep⟩

/-- Two bytes that arrive one by one, with checkers that know the length from the first byte. -/
theorem check_recv_right :
    FixedRight (fun _ _ => (2, ())) 0 10 [1, 2] () 2 [⟨0, 1⟩, ⟨0, 1⟩] ∧
      GrowRight (fun _ _ _ _ => ⟨2, true, ()⟩) 0 10 [1, 2] () (0#32).toInt true [⟨0, 1⟩, ⟨0, 1⟩] := by
  have hmsg : ([1, 2] : List UInt8) ≠ [] := List.cons_ne_nil _ _
  have hbytes : ∀ pass ∈ [(⟨0, 1⟩ : RecvPass), ⟨0, 1⟩], BytesArrive 0 10 pass := by simp [BytesArrive, RecvPass.late]
  have hboth := check_recv_right_iff (σ := Unit) hmsg hbytes le_rfl
  constructor
  · refine (hboth.1 (fun _ _ => (2, ())) () 2 ⟨fun _ _ _ _ _ => .inr rfl, fun _ => rfl⟩ (by decide)).mpr ?_
    refine ⟨?_, ?_, trivial⟩
    · rintro - got ⟨⟩ hfull
      exact absurd hfull (by decide)
    · rintro - got ⟨⟩ -
      decide
  · refine (hboth.2 (fun _ _ _ _ => ⟨2, true, ()⟩) () 0#32 true ⟨fun _ _ _ _ _ _ => .inr rfl, fun _ _ => rfl⟩
      (by decide)).mpr ⟨by decide, ?_, ?_, trivial⟩
    · rintro - got ⟨⟩ - - hzero
      exact absurd hzero (by decide)
    · rintro - got ⟨⟩ - - hzero
      exact absurd hzero (by decide)

/-- The first byte of two fills the buffer of the caller, and the checker announces two: a receive without space.  And
a checker says that it has detected the length, but not which: the message is there, and the loop waits for more. -/
theorem split_message_lost :
    (¬ ∀ func : Unit → List UInt8 → ℤ × Unit, CallerChecks func [1, 2] →
      FixedRight func 0 10 [1, 2] () 1 [⟨0, 1⟩, ⟨0, 1⟩]) ∧
    ¬ ∀ check : MsgChecker Unit, ContextChecks check [1, 2] →
      GrowRight check 0 10 [1, 2] () 0 true [⟨0, 1⟩, ⟨0, 1⟩] := by
  constructor
  · intro h
    have hright := h (fun _ _ => (2, ())) ⟨fun _ _ _ _ _ => .inr rfl, fun _ => rfl⟩
    exact absurd (hright.2.2.1 (by decide)) (by decide)
  · intro h
    have hright := h (fun _ bytes _ _ => ⟨if bytes = [1, 2] then 2 else 0, true, ()⟩)
      ⟨fun _ part _ _ _ hne => .inl (if_neg hne), fun _ _ => rfl⟩
    exact absurd hright.1.ret (by decide)

end FStack.Analysis
