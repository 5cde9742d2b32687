import FStack.Model.ZeroCopy
import Mathlib.Data.List.Induction
import Mathlib.Data.List.Nodup

/-!
# What a receive cursor hands out

`ff_zc_mbuf_read` keeps its place inside an mbuf in `off`; `ff_zc_mbuf_segment` hands out the whole
mbuf at the cursor, whatever `off` is, and its return value for an empty mbuf is the one that is
documented to mean the end of the chain.  So a segment asked for in the middle of an mbuf repeats
bytes that were read before, and a segment of length zero ends the traversal early.

`zcRecvRun_delivers_iff` shows that nothing else goes wrong: as long as segments are asked for at the
beginning of an mbuf that is not empty, every byte is delivered once and in order.
-/

set_option autoImplicit false

namespace FStack.Analysis

open FStack.Model

variable {α : Type}
variable {total delivered : List α} {zm : ZcRecv α}

/-- After every call the bytes handed out are a prefix of the chain's bytes, and a call that reports
exhaustion finds all of them handed out. -/
def DeliversInOrder (chain : List (List α)) (calls : List ZcRecvCall) : Prop :=
  ∀ pre, pre <+: calls →
    (zcRecvRun chain pre).delivered <+: chain.flatten ∧
      ((zcRecvRun chain pre).ret = 0 → (zcRecvRun chain pre).delivered = chain.flatten)

/-- The cursor is at the end, or at the beginning of an mbuf that is not empty (unless nothing but
empty mbufs is left). -/
def AtSegment (zm : ZcRecv α) : Prop :=
  ∀ m next, zm.bsd_mbuf_off = m :: next → zm.off = 0 ∧ (m = [] → next.flatten = [])

/-- Every segment is asked for with the cursor at a segment. -/
def SegmentsAtStart (chain : List (List α)) (calls : List ZcRecvCall) : Prop :=
  ∀ pre, pre ++ [.segment] <+: calls → AtSegment (zcRecvRun chain pre).zm

/-! ## One call -/

/-- The cursor stands in the byte string `total` where `delivered` ends: in front of the mbufs at the
cursor come the bytes of the mbufs that were left behind, and `off` bytes of the mbuf at the cursor
were handed out. -/
structure Tracks (total : List α) (zm : ZcRecv α) (delivered : List α) : Prop where
  inside : zm.off = 0 ∨ ∃ m next, zm.bsd_mbuf_off = m :: next ∧ zm.off < m.length
  place : ∃ before, total = before ++ zm.bsd_mbuf_off.flatten ∧
    delivered = before ++ zm.bsd_mbuf_off.flatten.take zm.off

theorem Tracks.delivered_prefix_total (h : Tracks total zm delivered) :
    delivered <+: total := by
  obtain ⟨before, rfl, rfl⟩ := h.place
  rw [List.prefix_append_right_inj]
  exact List.take_prefix _ _

/-- At the end of the chain everything was handed out. -/
theorem Tracks.eq_of_end (h : Tracks total zm delivered) (hend : zm.bsd_mbuf_off.flatten = []) :
    delivered = total := by
  obtain ⟨before, rfl, rfl⟩ := h.place
  simp [hend]

theorem tracks_init (chain : List (List α)) : Tracks chain.flatten (zcRecvInit chain) [] :=
  ⟨.inl rfl, [], rfl, by simp [zcRecvInit]⟩

/-- Where the cursor stands in the first mbuf. -/
theorem Tracks.cons {total delivered m : List α} {next : List (List α)} {off : ℕ}
    (h : Tracks total ⟨m :: next, off⟩ delivered) :
    off ≤ m.length ∧ ∃ before, total = before ++ m ++ next.flatten ∧
      delivered = before ++ m.take off := by
  have hle : off ≤ m.length := by
    rcases h.inside with h0 | ⟨m', next', heq, hlt⟩
    · simp only at h0
      omega
    · simp only [List.cons.injEq] at heq hlt
      obtain ⟨rfl, -⟩ := heq
      omega
  obtain ⟨before, htotal, hdel⟩ := h.place
  refine ⟨hle, before, by simpa using htotal, ?_⟩
  simpa [List.take_append, Nat.sub_eq_zero_of_le hle] using hdel

/-- Moving on inside an mbuf. -/
theorem tracks_inside {before m : List α} {next : List (List α)} {off : ℕ} (hlt : off < m.length)
    (htotal : total = before ++ m ++ next.flatten) :
    Tracks total ⟨m :: next, off⟩ (before ++ m.take off) := by
  refine ⟨.inr ⟨m, next, rfl, hlt⟩, before, by simp [htotal], ?_⟩
  simp [List.take_append, Nat.sub_eq_zero_of_le hlt.le]

/-- Moving on to the next mbuf. -/
theorem tracks_next {before m : List α} {next : List (List α)} (htotal : total = before ++ m ++ next.flatten) :
    Tracks total ⟨next, 0⟩ (before ++ m) :=
  ⟨.inl rfl, before ++ m, htotal, by simp⟩

/-- The loop hands out what follows, and stops at the length asked for or at the end.
SOURCE: lib/ff_veth.c:385-394 -/
theorem ffZcMbufReadLoop_tracks {total delivered : List α} (len : ℕ) (mb : List (List α)) (moff : ℕ)
    (out : List α) (h : Tracks total ⟨mb, moff⟩ (delivered ++ out)) :
    Tracks total (ffZcMbufReadLoop len mb moff out).1
        (delivered ++ (ffZcMbufReadLoop len mb moff out).2) ∧
      ((ffZcMbufReadLoop len mb moff out).2.length < len →
        (ffZcMbufReadLoop len mb moff out).1.bsd_mbuf_off = []) := by
  fun_induction ffZcMbufReadLoop len mb moff out with
  | case1 moff out => exact ⟨h, fun _ => rfl⟩
  | case2 moff out m next hlen length out' hdone ih =>
    obtain ⟨hle, before, htotal, hdel⟩ := h.cons
    apply ih
    have hall : (m.drop moff).take length = m.drop moff := by
      apply List.take_of_length_le
      rw [List.length_drop]
      omega
    have hout : delivered ++ out' = before ++ m := by
      rw [show out' = out ++ m.drop moff by rw [← hall], ← List.append_assoc, hdel,
        List.append_assoc, List.take_append_drop]
    rw [hout]
    exact tracks_next htotal
  | case3 moff out m next hlen length out' hmore ih =>
    obtain ⟨hle, before, htotal, hdel⟩ := h.cons
    apply ih
    have hout : delivered ++ out' = before ++ m.take (moff + length) := by
      rw [show out' = out ++ (m.drop moff).take length from rfl, ← List.append_assoc, hdel,
        List.append_assoc, List.take_add]
    rw [hout]
    exact tracks_inside (by omega) htotal
  | case4 moff out m next hlen => exact ⟨h, fun hlt => absurd hlt hlen⟩

/-- `ff_zc_mbuf_read` keeps the place, and returns 0 at the end of the chain only.
SOURCE: lib/ff_veth.c:370-399 -/
theorem ffZcMbufRead_tracks (len : ℤ) (h : Tracks total zm delivered) :
    Tracks total (ffZcMbufRead zm len).1 (delivered ++ (ffZcMbufRead zm len).2.bytes) ∧
      ((ffZcMbufRead zm len).2.ret = 0 → (ffZcMbufRead zm len).1.bsd_mbuf_off = []) := by
  unfold ffZcMbufRead
  split
  · exact ⟨by simpa using h, by simp⟩
  · rename_i hpos
    have hloop := @ffZcMbufReadLoop_tracks α total delivered len.toNat zm.bsd_mbuf_off zm.off []
      (by simpa using h)
    refine ⟨hloop.1, fun hret => hloop.2 ?_⟩
    simp only [Nat.cast_eq_zero] at hret
    omega

/-- `ff_zc_mbuf_segment` keeps the place if the cursor is at a segment.
SOURCE: lib/ff_veth.c:401-427 -/
theorem ffZcMbufSegment_tracks (h : Tracks total zm delivered) (hat : AtSegment zm) :
    Tracks total (ffZcMbufSegment zm).1 (delivered ++ (ffZcMbufSegment zm).2.bytes) ∧
      ((ffZcMbufSegment zm).2.ret = 0 → (ffZcMbufSegment zm).1.bsd_mbuf_off.flatten = []) := by
  obtain ⟨mb, off⟩ := zm
  cases mb with
  | nil => exact ⟨by simpa [ffZcMbufSegment] using h, by simp [ffZcMbufSegment]⟩
  | cons m next =>
    obtain ⟨h0, hempty⟩ := hat m next rfl
    simp only at h0
    subst h0
    obtain ⟨-, before, htotal, hdel⟩ := h.cons
    rw [List.take_zero, List.append_nil] at hdel
    refine ⟨?_, fun hret => ?_⟩
    · simpa [ffZcMbufSegment, hdel] using tracks_next htotal
    · simp only [ffZcMbufSegment, Nat.cast_eq_zero, List.length_eq_zero_iff] at hret
      exact hempty hret

/-- A segment asked for elsewhere shows: bytes are repeated, or the end is reported too
early. -/
theorem ffZcMbufSegment_misplaced (hnd : total.Nodup) (h : Tracks total zm delivered)
    (hpre : delivered ++ (ffZcMbufSegment zm).2.bytes <+: total) (hret : (ffZcMbufSegment zm).2.ret = 0 →
      delivered ++ (ffZcMbufSegment zm).2.bytes = total) : AtSegment zm := by
  obtain ⟨mb, off⟩ := zm
  rintro m next ⟨rfl⟩
  obtain ⟨hle, before, htotal, hdel⟩ := h.cons
  simp only [ffZcMbufSegment, hdel] at hpre hret
  have hoff : off = 0 := by
    by_contra hne
    -- the first byte of the mbuf is in both parts
    have hnd' : (before ++ m.take off ++ m).Nodup := hnd.sublist hpre.sublist
    cases m with
    | nil => simp at hle; omega
    | cons a m =>
      have hdisj := (List.nodup_append.mp hnd').2.2 a
      cases off with
      | zero => exact hne rfl
      | succ k =>
        exact hdisj (by simp) a (by simp) rfl
  refine ⟨hoff, fun hm => ?_⟩
  subst hm
  have hall := hret (by simp)
  rw [htotal] at hall
  simpa using hall.symm

/-! ## Runs -/

theorem zcRecvRun_append (chain : List (List α)) (pre : List ZcRecvCall) (c : ZcRecvCall) :
    zcRecvRun chain (pre ++ [c]) = (zcRecvRun chain pre).call c := by
  simp [zcRecvRun]

/-- The calls before a prefix. -/
theorem SegmentsAtStart.of_append {chain : List (List α)} {pre : List ZcRecvCall} {c : ZcRecvCall}
    (h : SegmentsAtStart chain (pre ++ [c])) : SegmentsAtStart chain pre :=
  fun p hp => h p (hp.trans (List.prefix_append _ _))

/-- The cursor is at the place where the delivered bytes end, after every run that asks for segments
at their start. -/
theorem zcRecvRun_tracks (chain : List (List α)) (calls : List ZcRecvCall)
    (h : SegmentsAtStart chain calls) :
    Tracks chain.flatten (zcRecvRun chain calls).zm (zcRecvRun chain calls).delivered ∧
      ((zcRecvRun chain calls).ret = 0 → (zcRecvRun chain calls).zm.bsd_mbuf_off.flatten = []) := by
  induction calls using List.reverseRecOn with
  | nil =>
    refine ⟨tracks_init chain, fun hret => ?_⟩
    have hzero : chain.flatten.length = 0 := Int.ofNat_eq_zero.mp hret
    exact List.length_eq_zero_iff.mp hzero
  | append_singleton pre c ih =>
    have hpre := (ih h.of_append).1
    rw [zcRecvRun_append]
    cases c with
    | read len =>
      obtain ⟨htracks, hend⟩ := ffZcMbufRead_tracks len hpre
      refine ⟨htracks, fun hret => ?_⟩
      simp only [ZcRecvRun.call, zcRecvStep] at hret ⊢
      simp [hend hret]
    | segment => exact ffZcMbufSegment_tracks hpre (h pre (List.prefix_refl _))

/-- As long as segments are asked for at the beginning of an mbuf that is not empty, the bytes are
handed out once, in order, and exhaustion is reported at the end only; and where the bytes of the
chain can be told apart, only then.
SOURCE: lib/ff_veth.c:370-427, lib/ff_api.h:422-454 -/
theorem zcRecvRun_delivers_iff (chain : List (List α)) (calls : List ZcRecvCall) :
    (SegmentsAtStart chain calls → DeliversInOrder chain calls) ∧
      (chain.flatten.Nodup → DeliversInOrder chain calls → SegmentsAtStart chain calls) := by
  constructor
  · intro h pre hpre
    have hpre' : SegmentsAtStart chain pre := fun p hp => h p (hp.trans hpre)
    obtain ⟨htracks, hend⟩ := zcRecvRun_tracks chain pre hpre'
    exact ⟨htracks.delivered_prefix_total, fun hret => htracks.eq_of_end (hend hret)⟩
  · intro hnd
    induction calls using List.reverseRecOn with
    | nil =>
      intro _ pre hpre
      simp at hpre
    | append_singleton calls c ih =>
      intro hdel
      have hearlier := ih fun pre hpre => hdel pre (hpre.trans (List.prefix_append _ _))
      intro pre hpre
      rcases List.prefix_concat_iff.mp hpre with heq | hpre
      · -- the last call is the segment
        obtain ⟨rfl, hc⟩ := List.append_inj' heq rfl
        obtain rfl : c = .segment := by simpa using hc.symm
        obtain ⟨hpfx, hret⟩ := hdel (pre ++ [.segment]) (List.prefix_refl _)
        rw [zcRecvRun_append] at hpfx hret
        exact ffZcMbufSegment_misplaced hnd (zcRecvRun_tracks chain pre hearlier).1 hpfx hret
      · exact hearlier pre hpre

/-- Two bytes read and then a segment: the two bytes come twice.  And the empty mbuf at the head of a
chain makes the first call report the end. -/
theorem partialRead_repeats_bytes :
    ¬ DeliversInOrder [[1, 2, 3, 4]] [.read 2, .segment] ∧
      ¬ DeliversInOrder [[], [5]] [.segment] := by
  constructor
  · intro h
    have := (h [.read 2, .segment] (List.prefix_refl _)).1
    simp [zcRecvRun, ZcRecvRun.call, zcRecvStep, ffZcMbufRead, ffZcMbufReadLoop, ffZcMbufSegment,
      zcRecvInit] at this
  · intro h
    have := (h [.segment] (List.prefix_refl _)).2
    simp [zcRecvRun, ZcRecvRun.call, zcRecvStep, ffZcMbufSegment, zcRecvInit] at this

end FStack.Analysis
