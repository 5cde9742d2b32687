import FStack.Model.LinkSend
import FStack.Analysis.CacheBuffers
import FStack.Prelude.Monitored

/-!
# Requests keep their framing on a shared link

Only the first handler in `_wait_send` has a part of its request written: a new request gets into the vector
behind the whole list, so bytes of it are only taken when nothing is left of the list.  What was written, with
what is left of the waiting requests, is therefore a row of whole requests.  This is kept unless a handler leaves
the list in the middle of its request.
-/

set_option autoImplicit false

namespace FStack.Analysis

open FStack.Model FStack.Prelude

variable {data : List UInt8} {result : WritevResult}

/-! ## What is expected -/

/-- The bytes of requests, one request after the other. -/
def taggedAll (requests : List (ℕ × List UInt8)) : List (ℕ × UInt8) :=
  requests.flatMap fun r => tagged r.1 r.2

/-- A link, and the requests in the order in which they were submitted. -/
structure Sending where
  link : SendLink
  submitted : List (ℕ × List UInt8)
deriving DecidableEq, Repr

namespace Sending

def init : Sending := ⟨SendLink.init, []⟩

/-- The request of a step, with its number. -/
def submits (s : Sending) : SendStep → Option (ℕ × List UInt8)
  | .request data _ => if data = [] ∨ s.link.closed then none else some (s.link.count, data)
  | _ => none

def step (s : Sending) (op : SendStep) : Sending where
  link := s.link.step op
  submitted := s.submitted ++ (s.submits op).toList

end Sending

/-- The socket was given whole requests in the order in which they were submitted, and then at most a part of
the next one; a request is known by its number, and has only one. -/
structure Framed (s : Sending) : Prop where
  numbered : (s.submitted.map Prod.fst).Pairwise (· < ·)
  written : ∃ (sent : List (ℕ × List UInt8)) (next : Option (ℕ × List UInt8)) (k : ℕ),
    (sent ++ next.toList).Sublist s.submitted ∧ (∀ r ∈ next, k < r.2.length) ∧
      s.link.written = taggedAll sent ++ (taggedAll next.toList).take k

/-- After a step the framing is right. -/
def FramingRight (s : Sending) (op : SendStep) : Prop := Framed (s.step op)

/-- The vector that a step writes. -/
def Sending.writes (s : Sending) : SendStep → Option (List (ℕ × UInt8))
  | .request data result => (writev (s.link.iov (some (s.link.count, data))) result).1
  | .output result => (writev (s.link.iov none) result).1
  | .timeout _ => none

/-- The condition on the state before a step: less than 2^32 bytes are written at once, and a handler does not
leave when a part of its request was written. -/
def FramingSafe (s : Sending) (op : SendStep) : Prop :=
  (∀ bytes ∈ s.writes op, bytes.length < 2 ^ 32) ∧
    ∀ item ∈ s.link.wait_send, op = .timeout item.id → item.send_pos = 0

instance (s : Sending) (op : SendStep) : Decidable (FramingSafe s op) :=
  inferInstanceAs (Decidable (_ ∧ _))

/-! ## The waiting handlers -/

variable {s : Sending} {items : List SendHandler} {link : SendLink}

/-- What is left of the requests of handlers. -/
def leftOver (items : List SendHandler) : List (ℕ × UInt8) :=
  items.flatMap fun item => tagged item.id item.getSendData

/-- Every handler has something left, and only the first one was sent a part. -/
structure Queued (items : List SendHandler) : Prop where
  left : ∀ item ∈ items, item.send_pos < item.request.length
  untouched : ∀ item ∈ items.tail, item.send_pos = 0

@[simp] theorem tagged_length (id : ℕ) (bytes : List UInt8) : (tagged id bytes).length = bytes.length :=
  List.length_map _

theorem tagged_take (id k : ℕ) (bytes : List UInt8) : tagged id (bytes.take k) = (tagged id bytes).take k :=
  List.map_take

theorem tagged_drop (id k : ℕ) (bytes : List UInt8) : tagged id (bytes.drop k) = (tagged id bytes).drop k :=
  List.map_drop

@[simp] theorem taggedAll_append (a b : List (ℕ × List UInt8)) :
    taggedAll (a ++ b) = taggedAll a ++ taggedAll b := List.flatMap_append

@[simp] theorem taggedAll_cons (r : ℕ × List UInt8) (b : List (ℕ × List UInt8)) :
    taggedAll (r :: b) = tagged r.1 r.2 ++ taggedAll b := rfl

@[simp] theorem taggedAll_singleton (r : ℕ × List UInt8) : taggedAll [r] = tagged r.1 r.2 :=
  List.append_nil _

@[simp] theorem taggedAll_toList (r : ℕ × List UInt8) : taggedAll (some r).toList = tagged r.1 r.2 :=
  List.append_nil _

@[simp] theorem leftOver_append (a b : List SendHandler) : leftOver (a ++ b) = leftOver a ++ leftOver b :=
  List.flatMap_append

@[simp] theorem leftOver_cons (item : SendHandler) (b : List SendHandler) :
    leftOver (item :: b) = tagged item.id item.getSendData ++ leftOver b := rfl

/-- Nothing was sent for handlers at the beginning. -/
theorem leftOver_untouched (h : ∀ item ∈ items, item.send_pos = 0) :
    leftOver items = taggedAll (items.map (·.numbered)) := by
  induction items with
  | nil => rfl
  | cons item rest ih =>
    rw [List.forall_mem_cons] at h
    rw [leftOver_cons, ih h.2, List.map_cons, taggedAll_cons]
    unfold SendHandler.getSendData
    rw [h.1, List.drop_zero]
    rfl

theorem Queued.rest {item : SendHandler} (h : Queued (item :: items)) : Queued items := by
  refine ⟨fun i hi => h.left i (List.mem_cons_of_mem _ hi), fun i hi => ?_⟩
  exact h.untouched i (List.mem_of_mem_tail hi)

/-- Handlers that leave keep the others in order. -/
theorem Queued.sublist {fewer : List SendHandler} (h : Queued items) (hsub : fewer.Sublist items) : Queued fewer :=
  ⟨fun item hitem => h.left item (hsub.subset hitem), fun item hitem => h.untouched item (hsub.tail.subset hitem)⟩

theorem Queued.nil_of_leftOver (h : Queued items) (hnone : leftOver items = []) : items = [] := by
  cases items with
  | nil => rfl
  | cons item rest =>
    have hpos := h.left item List.mem_cons_self
    have hlen := congrArg List.length hnone
    rw [leftOver_cons, List.length_append, tagged_length] at hlen
    unfold SendHandler.getSendData at hlen
    rw [List.length_drop, List.length_nil] at hlen
    omega

/-- A handler after some more of its request was sent. -/
theorem skipSendPos_getSendData (item : SendHandler) (len : ℕ) :
    (item.skipSendPos len).1.getSendData = item.getSendData.drop len := by
  unfold SendHandler.skipSendPos
  dsimp only
  split
  · rename_i hall
    rw [List.drop_of_length_le hall]
    unfold SendHandler.getSendData at hall ⊢
    dsimp only
    rw [← List.drop_drop, List.drop_of_length_le le_rfl]
  · unfold SendHandler.getSendData
    rw [List.drop_drop]

/-- What the loop after a `writev` leaves of the waiting handlers. -/
structure Skipped (items : List SendHandler) (n : ℕ) (r : List SendHandler × ℕ) : Prop where
  gone : ∃ gone, items.map (·.numbered) = gone ++ r.1.map (·.numbered)
  leftOver : leftOver r.1 = (leftOver items).drop n
  send_left : r.2 = n - (Analysis.leftOver items).length
  queued : Queued r.1

/-- **The loop after a `writev`** takes the bytes off the front of the list.
SOURCE: mt_net.cpp:1060-1075 -/
theorem skipLoop_skipped (h : Queued items) (n : ℕ) : Skipped items n (skipLoop items n) := by
  induction items generalizing n with
  | nil => exact ⟨⟨[], rfl⟩, List.drop_nil.symm, (Nat.sub_zero n).symm, h⟩
  | cons item rest ih =>
    have hleft := h.left item List.mem_cons_self
    have hpos : 0 < item.getSendData.length := by
      unfold SendHandler.getSendData
      rw [List.length_drop]
      omega
    have hdata := skipSendPos_getSendData item n
    have hlength : (Analysis.leftOver (item :: rest)).length =
        item.getSendData.length + (Analysis.leftOver rest).length := by
      rw [leftOver_cons, List.length_append, tagged_length]
    unfold skipLoop
    by_cases hall : item.getSendData.length ≤ n
    · -- the request is sent, and the handler leaves the list
      have hskip : (item.skipSendPos n).2 = item.getSendData.length := by
        unfold SendHandler.skipSendPos
        rw [if_pos hall]
      have hnone : (item.skipSendPos n).1.getSendData.length = 0 := by
        rw [hdata, List.length_drop]
        omega
      have hdrop : (Analysis.leftOver (item :: rest)).drop n =
          (Analysis.leftOver rest).drop (n - item.getSendData.length) := by
        rw [leftOver_cons, List.drop_append, tagged_length, List.drop_of_length_le, List.nil_append]
        rw [tagged_length]
        exact hall
      dsimp only
      rw [if_pos hnone, hskip]
      split
      · rename_i hzero
        rw [hzero] at hdrop
        refine ⟨⟨[item.numbered], rfl⟩, hdrop.symm, ?_, h.rest⟩
        dsimp only
        omega
      · obtain ⟨⟨gone, hgone⟩, hrest, hsend, hqueued⟩ := ih h.rest (n - item.getSendData.length)
        refine ⟨⟨item.numbered :: gone, ?_⟩, ?_, ?_, hqueued⟩
        · rw [List.map_cons, hgone]
          rfl
        · rw [hdrop]
          exact hrest
        · dsimp only
          rw [hsend, hlength]
          omega
    · -- a part of the request is sent
      have hskip : (item.skipSendPos n).2 = n := by
        unfold SendHandler.skipSendPos
        rw [if_neg hall]
      have hsome : ¬ (item.skipSendPos n).1.getSendData.length = 0 := by
        rw [hdata, List.length_drop]
        omega
      dsimp only
      rw [if_neg hsome, hskip, if_pos (Nat.sub_self n), Nat.sub_self]
      refine ⟨⟨[], rfl⟩, ?_, ?_, ?_⟩
      · change tagged item.id (item.skipSendPos n).1.getSendData ++ Analysis.leftOver rest = _
        rw [hdata, tagged_drop, leftOver_cons, List.drop_append_of_le_length]
        rw [tagged_length]
        omega
      · dsimp only
        omega
      · refine ⟨?_, h.untouched⟩
        rw [List.singleton_append, List.forall_mem_cons]
        refine ⟨?_, h.rest.left⟩
        rw [hdata, List.length_drop] at hsome
        unfold SendHandler.getSendData at hsome
        unfold SendHandler.skipSendPos
        rw [if_neg hall]
        dsimp only
        rw [List.length_drop] at hsome
        omega

/-! ## One `writev` -/

/-- What a call of `SendCacheTcp` does: nothing, or bytes are taken from what is left of the waiting requests, and
then from a new one. -/
structure SentCache (link : SendLink) (fresh : Option (ℕ × List UInt8)) (r : SendLink × ℤ) : Prop where
  frame : r.1.count = link.count ∧ r.1.closed = link.closed
  gone : ∃ gone, link.wait_send.map (·.numbered) = gone ++ r.1.wait_send.map (·.numbered)
  queued : Queued r.1.wait_send
  sent : ∃ (bytes : List (ℕ × UInt8)) (k : ℕ), r.1.written = link.written ++ bytes ∧
    bytes ++ leftOver r.1.wait_send = leftOver link.wait_send ++ (taggedAll fresh.toList).take k ∧
    (r.2 = k ∨ (k = 0 ∧ r.2 < 0)) ∧ k ≤ (taggedAll fresh.toList).length ∧
    (0 < k → r.1.wait_send = [])

theorem sentCache_nothing (h : Queued link.wait_send) (fresh : Option (ℕ × List UInt8)) {ret : ℤ}
    (hret : ret = 0 ∨ ret = -1) : SentCache link fresh (link, ret) := by
  refine ⟨⟨rfl, rfl⟩, ⟨[], rfl⟩, h, [], 0, (List.append_nil _).symm, ?_, ?_, Nat.zero_le _, ?_⟩
  · rw [List.take_zero, List.append_nil, List.nil_append]
  · rcases hret with rfl | rfl
    · exact Or.inl rfl
    · exact Or.inr ⟨rfl, Int.negSucc_lt_zero 0⟩
  · exact fun hlt => absurd hlt (Nat.lt_irrefl 0)

/-- The vector begins with what is left of the list, and a new request is only in it behind the whole list. -/
theorem taggedAll_iov (link : SendLink) (fresh : Option (ℕ × List UInt8)) :
    taggedAll (link.iov fresh) <+: leftOver link.wait_send ∨
      taggedAll (link.iov fresh) = leftOver link.wait_send ++ taggedAll fresh.toList ∧
        ∀ r ∈ fresh, r ∈ link.iov fresh := by
  have hmap : ∀ items : List SendHandler,
      taggedAll (items.map fun item => (item.id, item.getSendData)) = leftOver items := fun items =>
    List.flatMap_map _ _ items
  unfold SendLink.iov
  dsimp only
  rw [List.length_map, List.length_take]
  split
  · rename_i hfew
    rw [List.take_of_length_le (by omega)]
    right
    refine ⟨?_, fun r hr => ?_⟩
    · rw [taggedAll_append, hmap]
    · rw [hr]
      exact List.mem_append_right _ List.mem_cons_self
  · left
    rw [hmap]
    nth_rewrite 2 [← List.take_append_drop 64 link.wait_send]
    rw [leftOver_append]
    exact List.prefix_append _ _

/-- INTERNAL: **`SendCacheTcp`** takes bytes from what is left of the waiting requests, and then from a new one.
SOURCE: mt_net.cpp:1020-1078 -/
theorem sendCacheTcp_sent (h : Queued link.wait_send) (fresh : Option (ℕ × List UInt8)) (result : WritevResult)
    (hsafe : ∀ bytes ∈ (writev (link.iov fresh) result).1, bytes.length < 2 ^ 32) :
    SentCache link fresh (link.sendCacheTcp fresh result) := by
  unfold SendLink.sendCacheTcp
  cases result with
  | failed again =>
    cases again with
    | true => exact sentCache_nothing h fresh (Or.inl rfl)
    | false => exact sentCache_nothing h fresh (Or.inr rfl)
  | accepted n =>
    unfold writev at hsafe ⊢
    dsimp only at hsafe ⊢
    by_cases hlong : ∃ entry ∈ link.iov fresh, 2 ^ 31 ≤ entry.2.length
    · rw [if_pos hlong]
      exact sentCache_nothing h fresh (Or.inr rfl)
    · rw [if_neg hlong] at hsafe ⊢
      dsimp only at hsafe ⊢
      have hvector := taggedAll_iov link fresh
      have hflat : ((link.iov fresh).flatMap fun entry => tagged entry.1 entry.2) =
          taggedAll (link.iov fresh) := rfl
      rw [hflat] at hsafe ⊢
      generalize taggedAll (link.iov fresh) = all at hvector hsafe ⊢
      have hbound := hsafe _ rfl
      rw [Nat.mod_eq_of_lt hbound]
      obtain ⟨hgone, hrest, hsend, hqueued⟩ := skipLoop_skipped h (all.take n).length
      generalize skipLoop link.wait_send (all.take n).length = r at *
      obtain ⟨items, send_left⟩ := r
      dsimp only at hgone hrest hsend hqueued ⊢
      rcases hvector with hlist | ⟨hbehind, hfresh⟩
      · -- only the list is in the vector
        have htake : all.take n <+: leftOver link.wait_send := (List.take_prefix n all).trans hlist
        have hle : send_left = 0 := by
          have hlen := htake.length_le
          omega
        subst hle
        refine ⟨⟨rfl, rfl⟩, hgone, hqueued, all.take n, 0, rfl, ?_, Or.inl rfl, Nat.zero_le _, ?_⟩
        · rw [List.take_zero, List.append_nil, hrest]
          nth_rewrite 1 [List.prefix_iff_eq_take.mp htake]
          exact List.take_append_drop _ _
        · exact fun hlt => absurd hlt (Nat.lt_irrefl 0)
      · -- the new request is behind the list
        have htotal : all.length = (leftOver link.wait_send).length + (taggedAll fresh.toList).length := by
          rw [hbehind, List.length_append]
        have htaken : (all.take n).length ≤ all.length := List.length_take_le' n all
        have hfits : send_left ≤ (taggedAll fresh.toList).length := by omega
        have hsmall : (taggedAll fresh.toList).length < 2 ^ 31 := by
          cases fresh with
          | none => exact Nat.two_pow_pos 31
          | some r =>
            have hentry : ¬ 2 ^ 31 ≤ r.2.length := fun hle => hlong ⟨r, hfresh r rfl, hle⟩
            rw [taggedAll_toList, tagged_length]
            exact Nat.not_le.mp hentry
        have hret : int32 (send_left : ℤ) = send_left := int32_natCast (Nat.lt_of_le_of_lt hfits hsmall)
        refine ⟨⟨rfl, rfl⟩, hgone, hqueued, all.take n, send_left, rfl, ?_, ?_, hfits, fun hpos => ?_⟩
        · have heq := List.prefix_iff_eq_take.mp (List.take_prefix n all)
          generalize (all.take n).length = m at *
          rw [hrest, hsend, heq, hbehind, List.take_append]
          by_cases hm : m ≤ (leftOver link.wait_send).length
          · rw [Nat.sub_eq_zero_of_le hm, List.take_zero, List.append_nil, List.append_nil,
              List.take_append_drop]
          · rw [List.drop_of_length_le (by omega), List.append_nil, List.take_of_length_le (by omega)]
        · left
          dsimp only
          exact hret
        · apply hqueued.nil_of_leftOver
          rw [hrest]
          apply List.drop_of_length_le
          omega

/-! ## Steps and runs -/

/-- What was written, with what is left of the waiting requests, is a row of whole requests. -/
structure QueueFramed (s : Sending) : Prop where
  queued : Queued s.link.wait_send
  whole : ∃ sent, (sent ++ s.link.wait_send.map (·.numbered)).Sublist s.submitted ∧
    s.link.written ++ leftOver s.link.wait_send =
      taggedAll (sent ++ s.link.wait_send.map (·.numbered))

/-- What a link keeps. -/
structure FramingSettled (s : Sending) : Prop where
  numbered : (s.submitted.map Prod.fst).Pairwise (· < ·)
  counted : ∀ r ∈ s.submitted, r.1 < s.link.count
  queue : s.link.closed = false → QueueFramed s
  framed : Framed s

/-- INTERNAL: a row of whole requests is cut in the first waiting one. -/
theorem QueueFramed.framed (h : QueueFramed s) (hnumbered : (s.submitted.map Prod.fst).Pairwise (· < ·)) :
    Framed s := by
  obtain ⟨sent, hsub, hwhole⟩ := h.whole
  refine ⟨hnumbered, ?_⟩
  cases hitems : s.link.wait_send with
  | nil =>
    rw [hitems] at hsub hwhole
    rw [List.map_nil, List.append_nil] at hsub hwhole
    refine ⟨sent, none, 0, ?_, by rintro r ⟨⟩, ?_⟩
    · rwa [Option.toList_none, List.append_nil]
    · rw [List.take_zero, List.append_nil, ← hwhole]
      exact (List.append_nil _).symm
  | cons item rest =>
    have hqueued := h.queued
    rw [hitems] at hsub hwhole hqueued
    rw [List.map_cons] at hsub hwhole
    refine ⟨sent, some item.numbered, item.send_pos, ?_, ?_, ?_⟩
    · apply List.Sublist.trans _ hsub
      exact (List.Sublist.refl sent).append (List.singleton_sublist.mpr List.mem_cons_self)
    · rintro r ⟨⟩
      exact hqueued.left item List.mem_cons_self
    · have huntouched : ∀ i ∈ rest, i.send_pos = 0 := hqueued.untouched
      rw [leftOver_cons, leftOver_untouched huntouched, taggedAll_append, taggedAll_cons,
        ← List.append_assoc, ← List.append_assoc] at hwhole
      have hcancel := List.append_cancel_right hwhole
      have hsplit : tagged item.id item.request =
          (tagged item.id item.request).take item.send_pos ++ tagged item.id item.getSendData := by
        rw [← tagged_take, SendHandler.getSendData, tagged_drop, tagged_take, List.take_append_drop]
      change _ = taggedAll sent ++ tagged item.id item.request at hcancel
      rw [hsplit, ← List.append_assoc] at hcancel
      rw [taggedAll_toList]
      exact List.append_cancel_right hcancel

/-- INTERNAL: a handler leaves the list of which nothing was sent.
SOURCE: mt_net.cpp:349-367 -/
theorem QueueFramed.timeout (h : QueueFramed s) {id : ℕ}
    (hsafe : ∀ item ∈ s.link.wait_send, item.id = id → item.send_pos = 0) :
    QueueFramed { s with link := s.link.timeout id } := by
  obtain ⟨sent, hsub, hwhole⟩ := h.whole
  rcases List.exists_or_eq_self_of_eraseP (fun item : SendHandler => item.id == id) s.link.wait_send with
    hsame | ⟨item, front, back, -, hid, hitems, herase⟩
  · have hlink : s.link.timeout id = s.link := by
      unfold SendLink.timeout
      rw [hsame]
    rw [hlink]
    exact h
  · have hqueued := h.queued
    have hpos : item.send_pos = 0 := by
      apply hsafe item _ (beq_iff_eq.mp hid)
      rw [hitems]
      exact List.mem_append_right _ List.mem_cons_self
    have hback : ∀ b ∈ back, b.send_pos = 0 := by
      intro b hb
      apply hqueued.untouched
      rw [hitems]
      cases front with
      | nil => exact hb
      | cons a front => exact List.mem_append_right _ (List.mem_cons_of_mem _ hb)
    have hqueued' : Queued (front ++ back) := by
      rw [hitems] at hqueued
      exact hqueued.sublist ((List.sublist_cons_self item back).append_left front)
    have hlink : (s.link.timeout id).wait_send = front ++ back := herase
    refine ⟨?_, sent, ?_, ?_⟩
    · change Queued (s.link.timeout id).wait_send
      rw [hlink]
      exact hqueued'
    · change List.Sublist (sent ++ (s.link.timeout id).wait_send.map (·.numbered)) s.submitted
      rw [hlink]
      rw [hitems] at hsub
      apply List.Sublist.trans _ hsub
      apply List.Sublist.append_left
      rw [List.map_append, List.map_append]
      exact List.Sublist.append_left (List.sublist_cons_self _ _) _
    · change s.link.written ++ leftOver (s.link.timeout id).wait_send =
        taggedAll (sent ++ (s.link.timeout id).wait_send.map (·.numbered))
      rw [hlink]
      have hitem : tagged item.id item.getSendData = tagged item.numbered.1 item.numbered.2 := by
        unfold SendHandler.getSendData
        rw [hpos, List.drop_zero]
        rfl
      rw [hitems, leftOver_append, leftOver_cons, leftOver_untouched hback, hitem, List.map_append, List.map_cons,
        taggedAll_append, taggedAll_append, taggedAll_cons] at hwhole
      simp only [← List.append_assoc] at hwhole
      have hcancel := List.append_cancel_right (List.append_cancel_right hwhole)
      rw [leftOver_append, leftOver_untouched hback, List.map_append, taggedAll_append, taggedAll_append,
        ← List.append_assoc, ← List.append_assoc, hcancel]

/-- INTERNAL: what `SendCacheTcp` leaves is a row of whole requests, up to a part of the new one. -/
theorem QueueFramed.sent (h : QueueFramed s) {fresh : Option (ℕ × List UInt8)} {r : SendLink × ℤ}
    (hsent : SentCache s.link fresh r) :
    ∃ sent k, (sent ++ r.1.wait_send.map (·.numbered)).Sublist s.submitted ∧
      r.1.written ++ leftOver r.1.wait_send =
        taggedAll (sent ++ r.1.wait_send.map (·.numbered)) ++ (taggedAll fresh.toList).take k ∧
      (r.2 = k ∨ (k = 0 ∧ r.2 < 0)) ∧ k ≤ (taggedAll fresh.toList).length ∧
      (0 < k → r.1.wait_send = []) := by
  obtain ⟨sent, hsub, hwhole⟩ := h.whole
  obtain ⟨gone, hgone⟩ := hsent.gone
  obtain ⟨bytes, k, hwritten, hbytes, hret, hk, hnil⟩ := hsent.sent
  rw [hgone, ← List.append_assoc] at hsub hwhole
  refine ⟨sent ++ gone, k, hsub, ?_, hret, hk, hnil⟩
  rw [hwritten, List.append_assoc, hbytes, ← List.append_assoc, hwhole]

/-- A handler that sent `k` bytes of its request, and waits if this is not all. -/
theorem waitRest_natCast (link : SendLink) {k : ℕ} (hk : k ≤ data.length) :
    link.waitRest data k =
      if k = data.length then { link with count := link.count + 1 }
      else { link with wait_send := link.wait_send ++ [⟨link.count, data, k⟩], count := link.count + 1 } := by
  have hpos : ((SendHandler.mk link.count data 0).skipSendPos k).1 = ⟨link.count, data, k⟩ := by
    unfold SendHandler.skipSendPos SendHandler.getSendData
    dsimp only
    rw [List.drop_zero, Nat.zero_add]
    split
    · rw [Nat.le_antisymm hk ‹_›]
    · rfl
  have hleft : (SendHandler.getSendData ⟨link.count, data, k⟩).length = 0 ↔ k = data.length := by
    unfold SendHandler.getSendData
    rw [List.length_drop]
    dsimp only
    omega
  unfold SendLink.waitRest
  rw [if_neg (by omega), Int.toNat_natCast]
  dsimp only
  rw [hpos]
  exact if_congr hleft rfl rfl

/-- INTERNAL: a new request is sent, or waits behind the others with what is left of it.
SOURCE: mt_net.cpp:322-347 -/
theorem QueueFramed.request (h : QueueFramed s) (hdata : data ≠ [])
    (hsafe : ∀ bytes ∈ (writev (s.link.iov (some (s.link.count, data))) result).1, bytes.length < 2 ^ 32) :
    QueueFramed ⟨s.link.request data result, s.submitted ++ [(s.link.count, data)]⟩ := by
  have hsent := sendCacheTcp_sent h.queued (some (s.link.count, data)) result hsafe
  obtain ⟨sent, k, hsub, hwhole, hret, hk, hnil⟩ := h.sent hsent
  have hqueued := hsent.queued
  have hcount := hsent.frame.1
  unfold SendLink.request
  rw [if_neg hdata]
  generalize s.link.sendCacheTcp (some (s.link.count, data)) result = r at *
  obtain ⟨link, ret⟩ := r
  rw [taggedAll_toList, tagged_length] at hk
  rw [taggedAll_toList] at hwhole
  dsimp only at hsub hwhole hret hk hnil hqueued hcount ⊢
  have hmore : (sent ++ link.wait_send.map (·.numbered)).Sublist (s.submitted ++ [(s.link.count, data)]) :=
    hsub.trans (List.sublist_append_left _ _)
  rcases hret with rfl | ⟨rfl, hneg⟩
  · rw [waitRest_natCast link hk, hcount]
    split
    · -- the request is sent
      rename_i hall
      have hnone : link.wait_send = [] := by
        apply hnil
        have hlen := List.length_pos_iff.mpr hdata
        omega
      rw [hnone] at hwhole hsub hqueued
      refine ⟨?_, sent ++ [(s.link.count, data)], ?_, ?_⟩
      · dsimp only
        rw [hnone]
        exact hqueued
      · dsimp only
        rw [hnone, List.map_nil, List.append_nil]
        rw [List.map_nil, List.append_nil] at hsub
        exact hsub.append_right _
      · dsimp only
        rw [hnone, hwhole, hall, ← tagged_take, List.take_length, List.map_nil, List.append_nil, List.append_nil,
          taggedAll_append, taggedAll_singleton]
    · -- the rest of it waits
      refine ⟨⟨fun item hitem => ?_, fun item hitem => ?_⟩, sent, ?_, ?_⟩
      · rcases List.mem_append.mp hitem with hitem | hitem
        · exact hqueued.left item hitem
        · obtain rfl := List.mem_singleton.mp hitem
          dsimp only
          omega
      · by_cases hzero : k = 0
        · cases hitems : link.wait_send with
          | nil =>
            dsimp only at hitem
            rw [hitems] at hitem
            cases hitem
          | cons first rest =>
            dsimp only at hitem
            rw [hitems] at hitem hqueued
            rcases List.mem_append.mp hitem with hitem | hitem
            · exact hqueued.untouched item hitem
            · obtain rfl := List.mem_singleton.mp hitem
              exact hzero
        · dsimp only at hitem
          rw [hnil (Nat.pos_of_ne_zero hzero)] at hitem
          cases hitem
      · rw [List.map_append, ← List.append_assoc]
        exact hsub.append_right _
      · have hrest : (tagged s.link.count data).take k ++ leftOver [⟨s.link.count, data, k⟩] =
            tagged s.link.count data := by
          rw [leftOver_cons, SendHandler.getSendData, tagged_drop]
          change _ ++ (_ ++ []) = _
          rw [List.append_nil, List.take_append_drop]
        rw [leftOver_append, ← List.append_assoc, hwhole, List.append_assoc (taggedAll _), hrest, List.map_append,
          ← List.append_assoc, taggedAll_append (sent ++ _), List.map_singleton, taggedAll_singleton]
        rfl
  · unfold SendLink.waitRest
    rw [if_pos hneg]
    refine ⟨hqueued, sent, hmore, ?_⟩
    dsimp only
    rw [hwhole, List.take_zero, List.append_nil]

theorem waitRest_count (link : SendLink) (data : List UInt8) (ret : ℤ) :
    (link.waitRest data ret).count = link.count + 1 := by
  unfold SendLink.waitRest
  split
  · rfl
  · dsimp only
    split
    · rfl
    · rfl

/-- INTERNAL: a new request has a new number.
SOURCE: mt_net.cpp:218-222, 322-347 -/
theorem FramingSettled.request (h : FramingSettled s) (hopen : s.link.closed = false)
    (hsafe : ∀ bytes ∈ (writev (s.link.iov (some (s.link.count, data))) result).1, bytes.length < 2 ^ 32) :
    FramingSettled (s.step (.request data result)) := by
  have hclosed := Bool.eq_false_iff.mp hopen
  have hlink : s.link.step (.request data result) = s.link.request data result := by
    unfold SendLink.step
    rw [if_neg hclosed]
  by_cases hdata : data = []
  · have hstep : s.step (.request data result) = s := by
      unfold Sending.step Sending.submits
      rw [hlink]
      unfold SendLink.request
      dsimp only
      rw [if_pos hdata, if_pos (Or.inl hdata), Option.toList_none, List.append_nil]
    rw [hstep]
    exact h
  · have hstep : s.step (.request data result) =
        ⟨s.link.request data result, s.submitted ++ [(s.link.count, data)]⟩ := by
      unfold Sending.step Sending.submits
      rw [hlink]
      dsimp only
      rw [if_neg (not_or.mpr ⟨hdata, hclosed⟩), Option.toList_some]
    have hqueue := (h.queue hopen).request hdata hsafe
    have hcount : (s.link.request data result).count = s.link.count + 1 := by
      unfold SendLink.request
      rw [if_neg hdata]
      dsimp only
      rw [waitRest_count, (sendCacheTcp_sent (h.queue hopen).queued _ result hsafe).frame.1]
    have hnumbered : ((s.submitted ++ [(s.link.count, data)]).map Prod.fst).Pairwise (· < ·) := by
      rw [List.map_append, List.pairwise_append]
      refine ⟨h.numbered, List.pairwise_singleton _ _, fun a ha b hb => ?_⟩
      obtain ⟨r, hr, rfl⟩ := List.mem_map.mp ha
      obtain rfl := List.mem_singleton.mp hb
      exact h.counted r hr
    rw [hstep]
    refine ⟨hnumbered, fun r hr => ?_, fun _ => hqueue, hqueue.framed hnumbered⟩
    dsimp only
    rw [hcount]
    rcases List.mem_append.mp hr with hr | hr
    · exact (h.counted r hr).trans (Nat.lt_succ_self _)
    · obtain rfl := List.mem_singleton.mp hr
      exact Nat.lt_succ_self _

/-- INTERNAL: the socket is writable.
SOURCE: mt_net.cpp:1396-1443 -/
theorem FramingSettled.output (h : FramingSettled s) (hopen : s.link.closed = false)
    (hsafe : ∀ bytes ∈ (writev (s.link.iov none) result).1, bytes.length < 2 ^ 32) :
    FramingSettled (s.step (.output result)) := by
  have hstep : s.step (.output result) = ⟨s.link.outputNotify result, s.submitted⟩ := by
    unfold Sending.step Sending.submits SendLink.step
    rw [if_neg (Bool.eq_false_iff.mp hopen), Option.toList_none, List.append_nil]
  have hqueue := h.queue hopen
  have hsent := sendCacheTcp_sent hqueue.queued none result hsafe
  obtain ⟨sent, k, hsub, hwhole, -⟩ := hqueue.sent hsent
  rw [Option.toList_none] at hwhole
  have hqueue' : QueueFramed ⟨(s.link.sendCacheTcp none result).1, s.submitted⟩ := by
    refine ⟨hsent.queued, sent, hsub, hwhole.trans ?_⟩
    rw [show taggedAll [] = [] from rfl, List.take_nil, List.append_nil]
  have hframed := hqueue'.framed h.numbered
  rw [hstep]
  have hcount := hsent.frame.1
  unfold SendLink.outputNotify
  dsimp only
  split
  · refine ⟨h.numbered, fun r hr => ?_, fun hno => (Bool.false_ne_true hno.symm).elim, hframed.numbered, hframed.written⟩
    dsimp only
    rw [hcount]
    exact h.counted r hr
  · refine ⟨h.numbered, fun r hr => ?_, fun _ => hqueue', hframed⟩
    dsimp only
    rw [hcount]
    exact h.counted r hr

/-- **One step.** -/
theorem FramingSettled.step (h : FramingSettled s) {op : SendStep} (hsafe : FramingSafe s op) :
    FramingSettled (s.step op) := by
  cases hclosed : s.link.closed with
  | true =>
    have hstep : s.step op = s := by
      have hnone : s.submits op = none := by
        cases op with
        | request data result =>
          unfold Sending.submits
          dsimp only
          rw [if_pos (Or.inr hclosed)]
        | output result => rfl
        | timeout id => rfl
      unfold Sending.step SendLink.step
      rw [if_pos hclosed, hnone, Option.toList_none, List.append_nil]
    rw [hstep]
    exact h
  | false =>
    cases op with
    | request data result => exact h.request hclosed hsafe.1
    | output result => exact h.output hclosed hsafe.1
    | timeout id =>
      have hstep : s.step (.timeout id) = { s with link := s.link.timeout id } := by
        unfold Sending.step Sending.submits SendLink.step
        rw [if_neg (Bool.eq_false_iff.mp hclosed), Option.toList_none, List.append_nil]
      have hqueue := (h.queue hclosed).timeout
        (fun item hitem hid => hsafe.2 item hitem (congrArg SendStep.timeout hid.symm))
      rw [hstep]
      exact ⟨h.numbered, h.counted, fun _ => hqueue, hqueue.framed h.numbered⟩

theorem framingSettled_init : FramingSettled Sending.init := by
  have hqueue : QueueFramed Sending.init := by
    refine ⟨⟨?_, ?_⟩, [], List.Sublist.refl _, rfl⟩
    · rintro item ⟨⟩
    · rintro item ⟨⟩
  refine ⟨List.Pairwise.nil, ?_, fun _ => hqueue, hqueue.framed List.Pairwise.nil⟩
  rintro r ⟨⟩

/-- **Requests keep their framing**, for any number of waiting handlers and whatever each `writev`
takes, in every run in which no handler leaves in the middle of its request and no `writev` takes 2^32 bytes or
more.
SOURCE: mt_net.cpp:322-368, 462-545, 1020-1115, 1396-1443 -/
theorem requests_framed {ops : List SendStep} (hsafe : AllSteps Sending.step FramingSafe Sending.init ops) :
    AllSteps Sending.step FramingRight Sending.init ops :=
  AllSteps.imp (I := FramingSettled) (fun _ _ h hs => h.step hs) (fun _ _ h hs => (h.step hs).framed)
    framingSettled_init hsafe

/-- Two requests; the socket takes three bytes of the first one, and later all but one byte of what is left; the
second handler does not wait long enough in the first run. -/
theorem requests_framed_two :
    AllSteps Sending.step FramingRight Sending.init
      [.request [1, 2, 3, 4] (.accepted 3), .request [5, 6] (.accepted 0), .timeout 1,
        .request [7, 8] (.accepted 2), .output (.accepted 1)] :=
  requests_framed (by decide)

/-- A handler leaves after two of the four bytes of its request were taken, and the next request follows. -/
theorem timeout_within_request :
    ¬ AllSteps Sending.step FramingRight Sending.init
      [.request [1, 2, 3, 4] (.accepted 2), .timeout 0, .request [5, 6] (.accepted 2)] := by
  rintro ⟨-, -, ⟨-, sent, next, k, hsub, hk, hwritten⟩, -⟩
  have hlink : ((((Sending.init.step (.request [1, 2, 3, 4] (.accepted 2))).step (.timeout 0)).step
      (.request [5, 6] (.accepted 2)))).link.written = [(0, 1), (0, 2), (1, 5), (1, 6)] := by decide
  have hsubmitted : ((((Sending.init.step (.request [1, 2, 3, 4] (.accepted 2))).step (.timeout 0)).step
      (.request [5, 6] (.accepted 2)))).submitted = [(0, [1, 2, 3, 4]), (1, [5, 6])] := by decide
  rw [hlink] at hwritten
  rw [hsubmitted] at hsub
  have hlength := congrArg List.length hwritten
  have hcases : sent ++ next.toList = [] ∨ sent ++ next.toList = [(1, [5, 6])] ∨
      sent ++ next.toList = [(0, [1, 2, 3, 4])] ∨
      sent ++ next.toList = [(0, [1, 2, 3, 4]), (1, [5, 6])] := by
    simp only [List.sublist_cons_iff, List.sublist_nil] at hsub
    rcases hsub with (h | ⟨_, h, rfl⟩) | ⟨_, h, rfl | ⟨_, rfl, rfl⟩⟩ <;> simp [h]
  cases next with
  | none =>
    rw [Option.toList_none, List.append_nil] at hcases
    rw [Option.toList_none, show taggedAll [] = [] from rfl, List.take_nil, List.append_nil] at hwritten
    rcases hcases with rfl | rfl | rfl | rfl
    all_goals exact absurd hwritten (by decide)
  | some r =>
    have hless := hk r rfl
    rw [List.length_append, List.length_take, taggedAll_toList, tagged_length] at hlength
    rw [Option.toList_some] at hcases
    rcases hcases with h | h | h | h
    · exact absurd h (List.append_ne_nil_of_right_ne_nil _ (List.cons_ne_nil _ _))
    · obtain ⟨rfl, hr⟩ : sent = [] ∧ [r] = [(1, [5, 6])] := List.append_inj' h rfl
      obtain rfl := List.singleton_inj.mp hr
      change 4 = 0 + min k 2 at hlength
      omega
    · obtain ⟨rfl, hr⟩ : sent = [] ∧ [r] = [(0, [1, 2, 3, 4])] := List.append_inj' h rfl
      obtain rfl := List.singleton_inj.mp hr
      change 4 = 0 + min k 4 at hlength
      change k < 4 at hless
      omega
    · obtain ⟨rfl, hr⟩ : sent = [(0, [1, 2, 3, 4])] ∧ [r] = [(1, [5, 6])] := List.append_inj' h rfl
      obtain rfl := List.singleton_inj.mp hr
      change 4 = 4 + min k 2 at hlength
      obtain rfl : k = 0 := by omega
      exact absurd hwritten (by decide)

end FStack.Analysis
