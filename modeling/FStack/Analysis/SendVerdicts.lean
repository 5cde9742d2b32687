import FStack.Model.SendVerdict
import FStack.Analysis.WriteInterest

/-!
# `WaitSend` and the bytes that were sent

Over a TCP link what was handed to the socket, with what is left of a request, is the request, so that the length
that is left says whether it was sent.  `SendCacheUdp` never changes that length, and the error of a handler may be
that of an earlier call, or one that came after its request was sent.
-/

set_option autoImplicit false

namespace FStack.Analysis

open FStack.Model FStack.Prelude

variable {link : VerdictLink} {items : List SendHandler}
variable {id : ℕ} {item : SendHandler} {data : Option (ℕ × List UInt8)} {results : List WritevResult} {op : VerdictStep}

/-! ## What is expected -/

/-- The bytes of a request among those that were handed to the socket. -/
def handed (written : List (ℕ × UInt8)) (id : ℕ) : List UInt8 := (written.filter (·.1 = id)).map Prod.snd

/-- When `WaitSend` returns, it returns success if and only if the bytes of the request were handed to the socket,
each one once; and it does not return `RC_SEND_FAIL` for a request that was. -/
structure VerdictRight (link : VerdictLink) (op : VerdictStep) : Prop where
  success : ∀ verdict ∈ (link.step op).2,
    verdict.2 = .success ↔ handed (link.step op).1.send.written verdict.1.id = verdict.1.request
  flushed : ∀ verdict ∈ (link.step op).2,
    handed (link.step op).1.send.written verdict.1.id = verdict.1.request → verdict.2 ≠ .sendFail

/-- The bytes that the socket takes in a step. -/
def socketTakes (link : VerdictLink) : VerdictStep → List (ℕ × UInt8)
  | .request data _ results => link.taken (some (link.send.count, data)) results
  | .output results => link.taken none results
  | _ => []

/-- The link is destroyed with an error. -/
def linkFails (link : VerdictLink) : VerdictStep → Prop
  | .output results => (link.sendCache none results).2 < 0
  | .destroy errno => errno ≠ .success
  | _ => False

/-- The condition on the state before a step and what the socket answers: less than 2^32 bytes are written at once
to a TCP socket; if the socket takes what is left of a request that waits, it is a TCP socket, and the handler has no
error from an earlier call; and the link is not destroyed with an error while the thread of a handler whose request
was sent has not gone on. -/
structure VerdictSafe (link : VerdictLink) (op : VerdictStep) : Prop where
  length : link.udp = false → (socketTakes link op).length < 2 ^ 32
  waiting : ∀ item ∈ link.send.wait_send, handed (socketTakes link op) item.id = item.getSendData →
    link.udp = false ∧ link.err_no item.id = .success
  woken : linkFails link op → ∀ item ∈ link.woken, handed link.send.written item.id ≠ item.request

instance : ∀ op, Decidable (linkFails link op)
  | .output _ => inferInstanceAs (Decidable (_ < _))
  | .destroy _ => inferInstanceAs (Decidable (_ ≠ _))
  | .request _ _ _ | .dispatch _ | .resume _ => inferInstanceAs (Decidable False)

instance (op : VerdictStep) : Decidable (VerdictSafe link op) :=
  decidable_of_iff
    ((link.udp = false → (socketTakes link op).length < 2 ^ 32) ∧
      (∀ item ∈ link.send.wait_send, handed (socketTakes link op) item.id = item.getSendData →
        link.udp = false ∧ link.err_no item.id = .success) ∧
      (linkFails link op → ∀ item ∈ link.woken, handed link.send.written item.id ≠ item.request))
    ⟨fun h => ⟨h.1, h.2.1, h.2.2⟩, fun h => ⟨h.length, h.waiting, h.woken⟩⟩

/-! ## The bytes of a request -/

@[simp] theorem handed_nil (id : ℕ) : handed [] id = [] := rfl

@[simp] theorem handed_append (a b : List (ℕ × UInt8)) (id : ℕ) :
    handed (a ++ b) id = handed a id ++ handed b id := by
  unfold handed
  rw [List.filter_append, List.map_append]

theorem handed_tagged_self (id : ℕ) (bytes : List UInt8) : handed (tagged id bytes) id = bytes := by
  unfold handed tagged
  rw [List.filter_eq_self.mpr]
  · rw [List.map_map]
    exact List.map_id _
  · intro b hb
    obtain ⟨byte, -, rfl⟩ := List.mem_map.mp hb
    exact decide_eq_true rfl

/-- No byte has the number of a request. -/
theorem handed_eq_nil {written : List (ℕ × UInt8)} (h : ∀ b ∈ written, b.1 ≠ id) :
    handed written id = [] := by
  unfold handed
  rw [List.filter_eq_nil_iff.mpr fun b hb => by rw [decide_eq_true_eq]; exact h b hb]
  rfl

theorem handed_tagged_of_ne {other : ℕ} (h : id ≠ other) (bytes : List UInt8) :
    handed (tagged id bytes) other = [] := by
  apply handed_eq_nil
  intro b hb
  obtain ⟨byte, -, rfl⟩ := List.mem_map.mp hb
  exact h

theorem handed_leftOver_of_notMem (h : id ∉ items.map (·.id)) : handed (leftOver items) id = [] := by
  induction items with
  | nil => rfl
  | cons item rest ih =>
    rw [List.map_cons, List.mem_cons, not_or] at h
    rw [leftOver_cons, handed_append, handed_tagged_of_ne (Ne.symm h.1), ih h.2]
    rfl

theorem handed_leftOver (hnodup : (items.map (·.id)).Nodup) (hitem : item ∈ items) :
    handed (leftOver items) item.id = item.getSendData := by
  induction items with
  | nil => cases hitem
  | cons first rest ih =>
    rw [List.map_cons, List.nodup_cons] at hnodup
    rw [leftOver_cons, handed_append]
    rcases List.mem_cons.mp hitem with rfl | hitem
    · rw [handed_tagged_self, handed_leftOver_of_notMem hnodup.1, List.append_nil]
    · have hne : first.id ≠ item.id := fun heq => hnodup.1 (heq ▸ List.mem_map_of_mem hitem)
      rw [handed_tagged_of_ne hne, ih hnodup.2 hitem, List.nil_append]

theorem leftOver_eq_nil (h : ∀ item ∈ items, item.getSendData = []) : leftOver items = [] := by
  apply List.flatMap_eq_nil_iff.mpr
  intro item hitem
  rw [h item hitem]
  rfl

/-- The numbers of requests. -/
theorem map_id_eq (items : List SendHandler) : items.map (·.id) = (items.map (·.numbered)).map Prod.fst :=
  by
  rw [List.map_map]
  rfl

/-! ## Datagrams -/

/-- `SendCacheUdp` notifies the handlers at the front of the list, and changes none.
SOURCE: mt_net.cpp:963-993 -/
theorem sendUdpNotified_append (items : List SendHandler) (results : List WritevResult) :
    sendUdpNotified items results ++ (sendUdpLoop items results).1 = items := by
  induction items generalizing results with
  | nil => rfl
  | cons item rest ih =>
    unfold sendUdpNotified sendUdpLoop
    split
    · rw [List.cons_append, ih]
    · rcases results with _ | ⟨_ | again, results⟩
      · rfl
      · exact congrArg (item :: ·) (ih results)
      · cases again with
        | true => rfl
        | false => rfl

/-- A new request is only sent when the loop of `SendCacheUdp` has come to its end.
SOURCE: mt_net.cpp:963-1017 -/
theorem sendUdpTaken_eq (data : Option (ℕ × List UInt8)) (items : List SendHandler) (results : List WritevResult) :
    sendUdpTaken data items results = sendUdpTaken none items results ++
      (if (sendUdpLoop items results).2.2 = none then sendUdpTaken data [] (sendUdpLoop items results).2.1
        else []) := by
  induction items generalizing results with
  | nil => rfl
  | cons item rest ih =>
    rw [sendUdpTaken.eq_def data (item :: rest), sendUdpTaken.eq_def none (item :: rest), sendUdpLoop]
    dsimp only
    split
    · exact ih results
    · rcases results with _ | ⟨_ | again, results⟩
      · rfl
      · change tagged _ _ ++ sendUdpTaken data rest results = tagged _ _ ++ sendUdpTaken none rest results ++ _
        rw [ih results, List.append_assoc]
        rfl
      · cases again with
        | true => rfl
        | false => rfl

/-- The bytes of the handlers that wait are those of handlers that are notified. -/
theorem sendUdpTaken_mem (items : List SendHandler) (results : List WritevResult) {b : ℕ × UInt8}
    (hb : b ∈ sendUdpTaken none items results) : b.1 ∈ (sendUdpNotified items results).map (·.id) := by
  induction items generalizing results with
  | nil => cases hb
  | cons item rest ih =>
    rw [sendUdpTaken] at hb
    rw [sendUdpNotified]
    split at hb
    · rename_i hempty
      rw [if_pos hempty, List.map_cons]
      exact List.mem_cons_of_mem _ (ih results hb)
    · rename_i hempty
      rw [if_neg hempty]
      split at hb
      · rw [List.map_cons]
        rcases List.mem_append.mp hb with hb | hb
        · obtain ⟨byte, -, rfl⟩ := List.mem_map.mp hb
          exact List.mem_cons_self
        · exact List.mem_cons_of_mem _ (ih results.tail hb)
      · cases hb

/-! ## One call of `SendCacheUdp` or `SendCacheTcp` -/

/-- The loop of `SendCacheTcp` notifies the handlers at the front of the list, of which nothing is left.
SOURCE: mt_net.cpp:1060-1075 -/
theorem skipNotified_append (h : Queued items) (n : ℕ) :
    items.map (·.numbered) = (skipNotified items n ++ (skipLoop items n).1).map (·.numbered) ∧
      ∀ item ∈ skipNotified items n, item.getSendData = [] := by
  induction items generalizing n with
  | nil => exact ⟨rfl, fun _ hitem => absurd hitem List.not_mem_nil⟩
  | cons item rest ih =>
    have hnumbered : (item.skipSendPos n).1.numbered = item.numbered := rfl
    rw [skipNotified, skipLoop]
    dsimp only
    by_cases hnone : (item.skipSendPos n).1.getSendData.length = 0
    · have hempty := List.length_eq_zero_iff.mp hnone
      rw [if_pos hnone, if_pos hnone]
      split
      · refine ⟨rfl, fun other hother => ?_⟩
        rw [List.mem_singleton.mp hother]
        exact hempty
      · obtain ⟨hmap, hsent⟩ := ih h.rest (n - (item.skipSendPos n).2)
        refine ⟨?_, fun other hother => ?_⟩
        · rw [List.map_cons, hmap]
          rfl
        · rcases List.mem_cons.mp hother with rfl | hother
          · exact hempty
          · exact hsent other hother
    · -- something is left of the request, so that nothing is left of the bytes
      have hzero : n - (item.skipSendPos n).2 = 0 := by
        rw [skipSendPos_getSendData, List.length_drop] at hnone
        unfold SendHandler.skipSendPos
        rw [if_neg (by omega)]
        exact Nat.sub_self n
      rw [if_neg hnone, if_pos hzero, if_neg hnone, if_pos hzero]
      exact ⟨rfl, fun _ hother => absurd hother List.not_mem_nil⟩

/-- What a call of `SendCacheUdp` or `SendCacheTcp` does: what the socket takes of requests that wait belongs to
handlers that stay, with the rest left, or that are notified; and of a new request it takes as much as is returned. -/
structure Flushed (link : VerdictLink) (data : Option (ℕ × List UInt8)) (results : List WritevResult) : Prop where
  numbered : link.send.wait_send.map (·.numbered) =
    (link.notified data results ++ (link.sendCache data results).1.send.wait_send).map (·.numbered)
  left : ∀ item ∈ (link.sendCache data results).1.send.wait_send, item.getSendData ≠ [] ∧
    ∃ old ∈ link.send.wait_send, old.numbered = item.numbered ∧
      handed (link.taken data results) item.id ++ item.getSendData = old.getSendData
  sent : ∀ item ∈ link.notified data results, ∃ old ∈ link.send.wait_send, old.numbered = item.numbered ∧
    (link.udp = true → item = old) ∧
    (link.udp = false → item.getSendData = [] ∧ handed (link.taken data results) item.id = old.getSendData)
  others : ∀ id ∉ link.send.wait_send.map (·.id), (∀ r ∈ data, r.1 ≠ id) → handed (link.taken data results) id = []
  fresh : ∀ r ∈ data, ∃ k ≤ r.2.length,
    handed (link.taken data results) r.1 = r.2.take k ∧
      ((link.sendCache data results).2 = k ∨ k = 0 ∧ (link.sendCache data results).2 < 0)

/-- What `SendCacheUdp` sends of a new request, and what it returns. -/
theorem sendCacheUdp_fresh (link : SendLink) (id : ℕ) (bytes : List UInt8) (results : List WritevResult) :
    ∃ k ≤ bytes.length,
      (if (sendUdpLoop link.wait_send results).2.2 = none
        then sendUdpTaken (some (id, bytes)) [] (sendUdpLoop link.wait_send results).2.1 else []) =
          tagged id (bytes.take k) ∧
      ((link.sendCacheUdp (some (id, bytes)) results).2 = k ∨
        k = 0 ∧ (link.sendCacheUdp (some (id, bytes)) results).2 < 0) := by
  have hret := (sendUdpLoop_left link.wait_send results).ret
  unfold SendLink.sendCacheUdp
  generalize sendUdpLoop link.wait_send results = r at *
  obtain ⟨items, results', ret⟩ := r
  cases ret with
  | some ret =>
    have hle := hret ret rfl
    refine ⟨0, Nat.zero_le _, rfl, ?_⟩
    dsimp only at hle ⊢
    omega
  | none =>
    rcases results' with _ | ⟨n | again, results'⟩
    · exact ⟨0, Nat.zero_le _, rfl, Or.inl rfl⟩
    · unfold sendUdpTaken
      dsimp only
      rw [if_pos rfl]
      by_cases hlong : 2 ^ 31 ≤ bytes.length
      · refine ⟨0, Nat.zero_le _, ?_, Or.inr ⟨rfl, ?_⟩⟩
        · change (if 2 ^ 31 ≤ bytes.length then [] else tagged id (bytes.take n)) = []
          rw [if_pos hlong]
        · change (if 2 ^ 31 ≤ bytes.length then _ else _ : SendLink × ℤ).2 < 0
          rw [if_pos hlong]
          exact Int.negSucc_lt_zero 1
      · refine ⟨min n bytes.length, Nat.min_le_right _ _, ?_, Or.inl ?_⟩
        · change (if 2 ^ 31 ≤ bytes.length then [] else tagged id (bytes.take n)) = _
          rw [if_neg hlong, List.take_eq_take_min]
        · change (if 2 ^ 31 ≤ bytes.length then _ else _ : SendLink × ℤ).2 = _
          rw [if_neg hlong]
          dsimp only
          rw [int32_natCast (Nat.lt_of_le_of_lt (Nat.min_le_right n bytes.length) (Nat.not_le.mp hlong))]
    · cases again with
      | true => exact ⟨0, Nat.zero_le _, rfl, Or.inl rfl⟩
      | false => exact ⟨0, Nat.zero_le _, rfl, Or.inr ⟨rfl, Int.negSucc_lt_zero 1⟩⟩

/-- **`SendCacheUdp`** notifies handlers without a change.
SOURCE: mt_net.cpp:953-1018 -/
theorem flushed_udp (hudp : link.udp = true) (hnodup : (link.send.wait_send.map (·.id)).Nodup)
    (hleft : ∀ item ∈ link.send.wait_send, item.getSendData ≠ [])
    (hdata : ∀ r ∈ data, r.1 ∉ link.send.wait_send.map (·.id)) (results : List WritevResult) :
    Flushed link data results := by
  have hcache : link.send.sendCache link.udp data results = link.send.sendCacheUdp data results := if_pos hudp
  have hafter : (link.sendCache data results).1.send.wait_send = (sendUdpLoop link.send.wait_send results).1 := by
    unfold VerdictLink.sendCache
    rw [hcache]
    unfold SendLink.sendCacheUdp
    dsimp only
    repeat' split
    all_goals rfl
  have hnotified : link.notified data results = sendUdpNotified link.send.wait_send results := if_pos hudp
  have htaken : link.taken data results = sendUdpTaken none link.send.wait_send results ++
      (if (sendUdpLoop link.send.wait_send results).2.2 = none
        then sendUdpTaken data [] (sendUdpLoop link.send.wait_send results).2.1 else []) :=
    (if_pos hudp).trans (sendUdpTaken_eq data link.send.wait_send results)
  have hall := sendUdpNotified_append link.send.wait_send results
  have hold : ∀ id ∉ (sendUdpNotified link.send.wait_send results).map (·.id),
      handed (sendUdpTaken none link.send.wait_send results) id = [] := fun id hid =>
    handed_eq_nil fun b hb heq => hid (heq ▸ sendUdpTaken_mem _ _ hb)
  have hnew : ∀ id, (∀ r ∈ data, r.1 ≠ id) →
      handed (link.taken data results) id = handed (sendUdpTaken none link.send.wait_send results) id := by
    intro id hid
    rw [htaken, handed_append]
    cases data with
    | none =>
      have hnone : sendUdpTaken none [] (sendUdpLoop link.send.wait_send results).2.1 = [] := rfl
      rw [hnone, ite_self, handed_nil, List.append_nil]
    | some r =>
      obtain ⟨k, -, hk, -⟩ := sendCacheUdp_fresh link.send r.1 r.2 results
      rw [hk, handed_tagged_of_ne (hid r rfl), List.append_nil]
  constructor
  case numbered => rw [hnotified, hafter, hall]
  case left =>
    intro item hitem
    rw [hafter] at hitem
    have hmem : item ∈ link.send.wait_send := hall ▸ List.mem_append_right _ hitem
    have hfront : item.id ∉ (sendUdpNotified link.send.wait_send results).map (·.id) := by
      intro hin
      rw [← hall, List.map_append] at hnodup
      exact List.disjoint_of_nodup_append hnodup hin (List.mem_map_of_mem hitem)
    refine ⟨hleft item hmem, item, hmem, rfl, ?_⟩
    rw [hnew item.id fun r hr heq => hdata r hr (heq ▸ List.mem_map_of_mem hmem), hold _ hfront, List.nil_append]
  case sent =>
    intro item hitem
    rw [hnotified] at hitem
    refine ⟨item, hall ▸ List.mem_append_left _ hitem, rfl, fun _ => rfl, fun htcp => ?_⟩
    exact absurd hudp (Bool.eq_false_iff.mp htcp)
  case others =>
    intro id hid hother
    rw [hnew id hother]
    apply hold
    intro hin
    rw [← hall, List.map_append] at hid
    exact hid (List.mem_append_left _ hin)
  case fresh =>
    rintro r hr
    obtain ⟨k, hk, hbytes, hret⟩ := sendCacheUdp_fresh link.send r.1 r.2 results
    have hwait : handed (sendUdpTaken none link.send.wait_send results) r.1 = [] := by
      apply hold
      intro hin
      refine hdata r hr ?_
      rw [← hall, List.map_append]
      exact List.mem_append_left _ hin
    cases hr
    refine ⟨k, hk, ?_, ?_⟩
    · rw [htaken, handed_append, hbytes, handed_tagged_self, hwait, List.nil_append]
    · unfold VerdictLink.sendCache
      rw [hcache]
      exact hret

/-- The bytes of an optional request. -/
theorem taggedAll_take (data : Option (ℕ × List UInt8)) (k : ℕ) (hid : ∀ r ∈ data, r.1 ≠ id) :
    handed ((taggedAll data.toList).take k) id = [] := by
  cases data with
  | none =>
    rw [Option.toList_none]
    exact congrArg (handed · id) List.take_nil
  | some r => rw [taggedAll_toList, ← tagged_take, handed_tagged_of_ne (hid r rfl)]

/-- `SendCacheTcp` notifies the handlers at the front of the list, of which nothing is left, and hands over
what `writev` takes. -/
theorem sendCacheTcp_notified (link : VerdictLink) (htcp : link.udp = false) (hqueued : Queued link.send.wait_send)
    (data : Option (ℕ × List UInt8)) (results : List WritevResult) :
    (link.send.sendCacheTcp data (results.head?.getD (.failed true))).1.written =
        link.send.written ++ link.taken data results ∧
      link.send.wait_send.map (·.numbered) = (link.notified data results ++
        (link.send.sendCacheTcp data (results.head?.getD (.failed true))).1.wait_send).map (·.numbered) ∧
      ∀ item ∈ link.notified data results, item.getSendData = [] := by
  unfold VerdictLink.taken VerdictLink.notified SendLink.sendCacheTcp
  rw [htcp, if_neg Bool.false_ne_true, if_neg Bool.false_ne_true]
  rcases writev (link.send.iov data) (results.head?.getD (.failed true)) with ⟨_ | bytes, again⟩
  · cases again with
    | true => exact ⟨(List.append_nil _).symm, rfl, fun _ hitem => nomatch hitem⟩
    | false => exact ⟨(List.append_nil _).symm, rfl, fun _ hitem => nomatch hitem⟩
  · exact ⟨rfl, skipNotified_append hqueued (bytes.length % 2 ^ 32)⟩

/-- **`SendCacheTcp`** skips in the list what was written of it.
SOURCE: mt_net.cpp:1020-1078 -/
theorem flushed_tcp (htcp : link.udp = false) (hqueued : Queued link.send.wait_send)
    (hnodup : (link.send.wait_send.map (·.id)).Nodup) (hdata : ∀ r ∈ data, r.1 ∉ link.send.wait_send.map (·.id))
    (hlength : (link.taken data results).length < 2 ^ 32) : Flushed link data results := by
  have hno : ¬ link.udp = true := Bool.eq_false_iff.mp htcp
  have hcache : link.send.sendCache link.udp data results =
      link.send.sendCacheTcp data (results.head?.getD (.failed true)) := if_neg hno
  have htaken : link.taken data results =
      ((writev (link.send.iov data) (results.head?.getD (.failed true))).1).getD [] := if_neg hno
  have hsent := sendCacheTcp_sent hqueued data (results.head?.getD (.failed true)) fun bytes hbytes => by
    rw [htaken, hbytes] at hlength
    exact hlength
  obtain ⟨hwritten, hnumbered, hempty⟩ := sendCacheTcp_notified link htcp hqueued data results
  obtain ⟨-, -, hqueued', bytes, k, hbytes, hside, hret, hk, -⟩ := hsent
  obtain rfl : bytes = link.taken data results := List.append_cancel_left (hbytes.symm.trans hwritten)
  have hafter : (link.sendCache data results).1.send.wait_send =
      (link.send.sendCacheTcp data (results.head?.getD (.failed true))).1.wait_send := by
    unfold VerdictLink.sendCache
    rw [hcache]
  have hresult : (link.sendCache data results).2 =
      (link.send.sendCacheTcp data (results.head?.getD (.failed true))).2 := by
    unfold VerdictLink.sendCache
    rw [hcache]
  rw [← hafter] at hqueued' hside hnumbered
  rw [← hresult] at hret
  generalize hmap : link.notified data results ++ (link.sendCache data results).1.send.wait_send = all at hnumbered
  have hids : all.map (·.id) = link.send.wait_send.map (·.id) := by
    rw [map_id_eq, map_id_eq, hnumbered]
  have hall : leftOver all = leftOver (link.sendCache data results).1.send.wait_send := by
    rw [← hmap, leftOver_append, leftOver_eq_nil hempty, List.nil_append]
  -- what is taken of a request, and what is left of it, was left of it before
  have hsplit : ∀ id, handed (link.taken data results) id ++ handed (leftOver all) id =
      handed (leftOver link.send.wait_send) id ++ handed ((taggedAll data.toList).take k) id := by
    intro id
    rw [hall, ← handed_append, ← handed_append, hside]
  have hitems : ∀ item ∈ all, ∃ old ∈ link.send.wait_send, old.numbered = item.numbered ∧
      handed (link.taken data results) item.id ++ item.getSendData = old.getSendData := by
    intro item hitem
    have hin : item.numbered ∈ link.send.wait_send.map (·.numbered) := hnumbered ▸ List.mem_map_of_mem hitem
    obtain ⟨old, hold, heq⟩ := List.mem_map.mp hin
    have hid : old.id = item.id := congrArg Prod.fst heq
    have hlaw := hsplit item.id
    rw [handed_leftOver (hids ▸ hnodup) hitem, ← hid, handed_leftOver hnodup hold, taggedAll_take data k fun r hr heq =>
      hdata r hr (heq ▸ List.mem_map_of_mem hold), List.append_nil, hid] at hlaw
    exact ⟨old, hold, heq, hlaw⟩
  constructor
  case numbered => rw [hmap, hnumbered]
  case left =>
    intro item hitem
    refine ⟨fun hnil => ?_, hitems item (hmap ▸ List.mem_append_right _ hitem)⟩
    have hpos := hqueued'.left item hitem
    have hlen := congrArg List.length hnil
    unfold SendHandler.getSendData at hlen
    rw [List.length_drop, List.length_nil] at hlen
    omega
  case sent =>
    intro item hitem
    obtain ⟨old, hold, heq, hlaw⟩ := hitems item (hmap ▸ List.mem_append_left _ hitem)
    rw [hempty item hitem, List.append_nil] at hlaw
    exact ⟨old, hold, heq, fun hudp => absurd hudp hno, fun _ => ⟨hempty item hitem, hlaw⟩⟩
  case others =>
    intro id hid hother
    have hlaw := hsplit id
    rw [handed_leftOver_of_notMem hid, taggedAll_take data k hother, List.append_nil] at hlaw
    exact (List.append_eq_nil_iff.mp hlaw).1
  case fresh =>
    intro r hr
    have hlaw := hsplit r.1
    rw [handed_leftOver_of_notMem (hdata r hr), handed_leftOver_of_notMem (hids ▸ hdata r hr)] at hlaw
    cases hr
    rw [taggedAll_toList] at hlaw hk
    rw [← tagged_take, handed_tagged_self, List.append_nil, List.nil_append] at hlaw
    rw [tagged_length] at hk
    exact ⟨k, hk, hlaw, hret⟩

/-- What is written is the front of the vector. -/
theorem writev_prefix {iov : List (ℕ × List UInt8)} {result : WritevResult} {bytes : List (ℕ × UInt8)} {again : Bool}
    (h : writev iov result = (some bytes, again)) : bytes <+: taggedAll iov := by
  unfold writev at h
  cases result with
  | failed again => cases h
  | accepted n =>
    dsimp only at h
    split at h
    · cases h
    · cases h
      exact List.take_prefix n _

/-- When `SendCacheTcp` fails without a new request, it has notified no handler.
SOURCE: mt_net.cpp:1046-1078 -/
theorem notified_of_failed (htcp : link.udp = false) (hqueued : Queued link.send.wait_send)
    (hlength : (link.taken none results).length < 2 ^ 32) (hfails : (link.sendCache none results).2 < 0) :
    link.notified none results = [] := by
  have hno : ¬ link.udp = true := Bool.eq_false_iff.mp htcp
  have hret : (link.sendCache none results).2 =
      (link.send.sendCacheTcp none (results.head?.getD (.failed true))).2 := by
    unfold VerdictLink.sendCache SendLink.sendCache
    rw [if_neg hno]
  rw [hret] at hfails
  unfold VerdictLink.taken at hlength
  unfold VerdictLink.notified
  rw [if_neg hno] at hlength ⊢
  unfold SendLink.sendCacheTcp at hfails
  have hvector := taggedAll_iov link.send none
  rw [Option.toList_none] at hvector
  cases hwritev : writev (link.send.iov none) (results.head?.getD (.failed true)) with
  | mk bytes again =>
    cases bytes with
    | none => rfl
    | some bytes =>
      -- the bytes are of the list, so that nothing is left of their number
      exfalso
      have hfront : bytes <+: taggedAll (link.send.iov none) := writev_prefix hwritev
      have hle : bytes.length ≤ (leftOver link.send.wait_send).length := by
        rcases hvector with hlist | ⟨hlist, -⟩
        · exact (hfront.trans hlist).length_le
        · rw [hlist] at hfront
          exact hfront.length_le.trans_eq (congrArg List.length (List.append_nil _))
      rw [hwritev] at hlength hfails
      have hzero : (skipLoop link.send.wait_send (bytes.length % 2 ^ 32)).2 = 0 := by
        rw [Option.getD_some] at hlength
        rw [(skipLoop_skipped hqueued _).send_left, Nat.mod_eq_of_lt hlength]
        exact Nat.sub_eq_zero_of_le hle
      dsimp only at hfails
      rw [hzero] at hfails
      exact absurd hfails (by decide)

/-! ## Steps and runs -/

/-- What `WaitSend` will say of a handler that was woken is right. -/
def Told (link : VerdictLink) (item : SendHandler) : Prop :=
  link.err_no item.id = .success ∧ item.getSendData = [] ↔ handed link.send.written item.id = item.request

/-- What holds between steps, where the requests that were submitted have numbers below `n`: of a request that waits,
what was handed over and what is left make the whole. -/
structure VerdictsSettled (n : ℕ) (link : VerdictLink) : Prop where
  nodup : ((link.send.wait_send ++ link.woken).map (·.id)).Nodup
  counted : ∀ item ∈ link.send.wait_send ++ link.woken, item.id < link.send.count
  written : ∀ b ∈ link.send.written, b.1 < n
  waiting : ∀ item ∈ link.send.wait_send, item.getSendData ≠ [] ∧
    handed link.send.written item.id ++ item.getSendData = item.request
  woken : ∀ item ∈ link.woken, Told link item
  queued : link.udp = false → Queued link.send.wait_send

variable {n : ℕ}

theorem mem_handed {written : List (ℕ × UInt8)} {b : ℕ × UInt8} (hb : b ∈ written) : b.2 ∈ handed written b.1 :=
  List.mem_map_of_mem (List.mem_filter.mpr ⟨hb, decide_eq_true rfl⟩)

/-- A request of which something is left was not sent. -/
theorem told_of_left (hleft : item.getSendData ≠ [])
    (hwhole : handed link.send.written item.id ++ item.getSendData = item.request) : Told link item := by
  refine ⟨fun h => absurd h.2 hleft, fun h => ?_⟩
  rw [← h] at hwhole
  exact absurd (List.append_right_eq_self.mp hwhole) hleft

theorem VerdictsSettled.nodupWaiting (h : VerdictsSettled n link) : (link.send.wait_send.map (·.id)).Nodup := by
  have hnodup := h.nodup
  rw [List.map_append] at hnodup
  exact hnodup.of_append_left

theorem VerdictsSettled.flushed (h : VerdictsSettled n link) (hdata : ∀ r ∈ data, r.1 = link.send.count)
    (hlength : link.udp = false → (link.taken data results).length < 2 ^ 32) : Flushed link data results := by
  have hfresh : ∀ r ∈ data, r.1 ∉ link.send.wait_send.map (·.id) := by
    intro r hr hin
    obtain ⟨item, hitem, hid⟩ := List.mem_map.mp hin
    have hlt := h.counted item (List.mem_append_left _ hitem)
    have hcount := hdata r hr
    omega
  cases hudp : link.udp with
  | true => exact flushed_udp hudp h.nodupWaiting (fun item hitem => (h.waiting item hitem).1) hfresh results
  | false => exact flushed_tcp hudp (h.queued hudp) h.nodupWaiting hfresh (hlength hudp)

/-- Sending gives no request a number. -/
theorem sendCache_count (link : VerdictLink) (data : Option (ℕ × List UInt8)) (results : List WritevResult) :
    (link.sendCache data results).1.send.count = link.send.count := by
  change (link.send.sendCache link.udp data results).1.count = link.send.count
  unfold SendLink.sendCache SendLink.sendCacheUdp SendLink.sendCacheTcp
  dsimp only
  repeat' split
  all_goals rfl

/-- The handlers after a call of `SendCacheUdp` or `SendCacheTcp` are those that were there. -/
theorem Flushed.perm (hflushed : Flushed link data results) :
    (((link.sendCache data results).1.send.wait_send ++ (link.sendCache data results).1.woken).map (·.id)).Perm
      ((link.send.wait_send ++ link.woken).map (·.id)) := by
  have hwoken : (link.sendCache data results).1.woken = link.woken ++ link.notified data results := rfl
  have hids := congrArg (List.map Prod.fst) hflushed.numbered
  rw [← map_id_eq, ← map_id_eq] at hids
  rw [hwoken, List.map_append, List.map_append, List.map_append, hids, List.map_append]
  refine List.perm_append_comm.trans ?_
  rw [List.append_assoc]
  exact List.perm_append_comm

/-- Nothing is sent for a handler that was woken. -/
theorem VerdictsSettled.handed_woken (h : VerdictsSettled n link) (hflushed : Flushed link data results)
    (hdata : ∀ r ∈ data, r.1 = link.send.count) (hitem : item ∈ link.woken) :
    handed (link.sendCache data results).1.send.written item.id = handed link.send.written item.id := by
  have hwritten : (link.sendCache data results).1.send.written =
      link.send.written ++ link.taken data results := rfl
  have hlt := h.counted item (List.mem_append_right _ hitem)
  have hnil := hflushed.others item.id ?_ ?_
  · rw [hwritten, handed_append, hnil, List.append_nil]
  · intro hin
    have hnodup := h.nodup
    rw [List.map_append] at hnodup
    exact List.disjoint_of_nodup_append hnodup hin (List.mem_map_of_mem hitem)
  · intro r hr heq
    have hcount := hdata r hr
    omega

/-- **One call of `SendCacheUdp` or `SendCacheTcp`** keeps what is known of the handlers.
SOURCE: mt_net.cpp:953-1078 -/
theorem VerdictsSettled.sendCache (h : VerdictsSettled link.send.count link) (hn : link.send.count ≤ n)
    (hdata : ∀ r ∈ data, r.1 = link.send.count ∧ link.send.count < n)
    (hlength : link.udp = false → (link.taken data results).length < 2 ^ 32)
    (hsafe : ∀ item ∈ link.send.wait_send, handed (link.taken data results) item.id = item.getSendData →
      link.udp = false ∧ link.err_no item.id = .success) :
    VerdictsSettled n (link.sendCache data results).1 := by
  have hflushed := h.flushed (fun r hr => (hdata r hr).1) hlength
  have hcount := sendCache_count link data results
  have hperm := hflushed.perm
  have hcounted : ∀ item ∈ (link.sendCache data results).1.send.wait_send ++ (link.sendCache data results).1.woken,
      item.id < link.send.count := by
    intro item hitem
    obtain ⟨old, hold, hid⟩ := List.mem_map.mp (hperm.subset (List.mem_map_of_mem hitem))
    exact hid ▸ h.counted old hold
  have hwritten : (link.sendCache data results).1.send.written =
      link.send.written ++ link.taken data results := rfl
  constructor
  case nodup => exact hperm.nodup_iff.mpr h.nodup
  case counted => exact fun item hitem => hcount.symm ▸ hcounted item hitem
  case written =>
    intro b hb
    rw [hwritten] at hb
    rcases List.mem_append.mp hb with hb | hb
    · exact Nat.lt_of_lt_of_le (h.written b hb) hn
    · by_contra hge
      have hnil := hflushed.others b.1 ?_ ?_
      · have hmem := mem_handed hb
        rw [hnil] at hmem
        cases hmem
      · intro hin
        obtain ⟨item, hitem, hid⟩ := List.mem_map.mp hin
        have hlt := h.counted item (List.mem_append_left _ hitem)
        omega
      · intro r hr heq
        have hlt := hdata r hr
        omega
  case waiting =>
    intro item hitem
    obtain ⟨hleft, old, hold, heq, hlaw⟩ := hflushed.left item hitem
    have hid : old.id = item.id := congrArg Prod.fst heq
    have hrequest : old.request = item.request := congrArg Prod.snd heq
    refine ⟨hleft, ?_⟩
    rw [hwritten, handed_append, List.append_assoc, hlaw, ← hid, (h.waiting old hold).2, hrequest]
  case woken =>
    intro item hitem
    unfold Told
    rcases List.mem_append.mp hitem with hitem | hitem
    · rw [h.handed_woken hflushed (fun r hr => (hdata r hr).1) hitem]
      exact h.woken item hitem
    · rw [hwritten, handed_append]
      obtain ⟨old, hold, heq, hudp, htcp⟩ := hflushed.sent item hitem
      have hid : old.id = item.id := congrArg Prod.fst heq
      have hrequest : old.request = item.request := congrArg Prod.snd heq
      obtain ⟨hleft, hwhole⟩ := h.waiting old hold
      rw [← hid, ← hrequest, ← hwhole, List.append_cancel_left_eq]
      by_cases hall : handed (link.taken data results) old.id = old.getSendData
      · obtain ⟨hno, herr⟩ := hsafe old hold hall
        exact ⟨fun _ => hall, fun _ => ⟨herr, (htcp hno).1⟩⟩
      · -- a datagram that was cut
        cases hproto : link.udp with
        | false => exact absurd (hid ▸ (htcp hproto).2) hall
        | true =>
          rw [hudp hproto]
          exact ⟨fun hsent => absurd hsent.2 hleft, fun hsent => absurd hsent hall⟩
  case queued => exact (sendCache_waiting h.queued data results).queued

/-- **`Destroy`** with an error tells no handler of one if its request was sent.
SOURCE: mt_net.cpp:701-775 -/
theorem VerdictsSettled.destroy (h : VerdictsSettled n link) {errno : RcType}
    (hsafe : errno ≠ .success → ∀ item ∈ link.woken, handed link.send.written item.id ≠ item.request) :
    VerdictsSettled n (link.destroy errno) := by
  constructor
  case nodup => exact h.nodup
  case counted => exact h.counted
  case written => exact h.written
  case waiting => exact fun item hitem => nomatch hitem
  case woken =>
    intro item hitem
    rcases List.mem_append.mp hitem with hitem | hitem
    · obtain ⟨hleft, hwhole⟩ := h.waiting item hitem
      exact told_of_left hleft hwhole
    · have htold := h.woken item hitem
      unfold Told at htold ⊢
      have herr : (link.destroy errno).err_no item.id =
          if errno ≠ .success ∧ item.id ∈ (link.send.wait_send ++ link.woken).map (·.id) then errno
          else link.err_no item.id := rfl
      rw [herr]
      by_cases hfine : errno = .success
      · rw [if_neg fun hne => hne.1 hfine]
        exact htold
      · have hin : item.id ∈ (link.send.wait_send ++ link.woken).map (·.id) :=
          List.mem_map_of_mem (List.mem_append_right _ hitem)
        rw [if_pos ⟨hfine, hin⟩]
        exact ⟨fun hsent => absurd hsent.1 hfine, fun hsent => absurd hsent (hsafe hfine item hitem)⟩
  case queued => exact fun _ => ⟨fun item hitem => (nomatch hitem), fun item hitem => (nomatch hitem)⟩

/-- The thread of a handler goes on, or a response wakes it: it leaves the list. -/
theorem VerdictsSettled.timeout (h : VerdictsSettled n link) (id : ℕ) {woken : List SendHandler}
    (hnodup : (((link.send.timeout id).wait_send ++ woken).map (·.id)).Nodup)
    (hwoken : ∀ item ∈ woken, Told link item ∧ item.id < link.send.count) :
    VerdictsSettled n { link with send := link.send.timeout id, woken := woken } := by
  have hsub : (link.send.timeout id).wait_send.Sublist link.send.wait_send := List.eraseP_sublist
  constructor
  case nodup => exact hnodup
  case counted =>
    intro item hitem
    rcases List.mem_append.mp hitem with hitem | hitem
    · exact h.counted item (List.mem_append_left _ (hsub.subset hitem))
    · exact (hwoken item hitem).2
  case written => exact h.written
  case waiting => exact fun item hitem => h.waiting item (hsub.subset hitem)
  case woken => exact fun item hitem => (hwoken item hitem).1
  case queued => exact fun hudp => (h.queued hudp).sublist hsub

/-- A list without the first entry that is found. -/
theorem find_append_eraseP {α : Type} (p : α → Bool) (l : List α) :
    ((l.find? p).toList ++ l.eraseP p).Perm l := by
  induction l with
  | nil => exact List.Perm.nil
  | cons a l ih =>
    cases hp : p a with
    | true => rw [List.find?_cons_of_pos hp, List.eraseP_cons_of_pos hp]; exact List.Perm.refl _
    | false =>
      rw [List.find?_cons_of_neg (Bool.eq_false_iff.mp hp), List.eraseP_cons_of_neg (Bool.eq_false_iff.mp hp)]
      exact List.perm_middle.trans (ih.cons a)

theorem VerdictsSettled.dispatch (h : VerdictsSettled n link) (id : ℕ) : VerdictsSettled n (link.dispatch id) := by
  apply h.timeout
  · have hperm : ((link.send.timeout id).wait_send ++
        (link.woken ++ (link.send.wait_send.find? (·.id == id)).toList)).Perm (link.send.wait_send ++ link.woken) := by
      refine (List.perm_append_comm_assoc _ _ _).trans (List.perm_append_comm.trans ?_)
      exact (List.perm_append_comm.trans (find_append_eraseP _ _)).append_right _
    exact (hperm.map _).nodup_iff.mpr h.nodup
  · intro item hitem
    rcases List.mem_append.mp hitem with hitem | hitem
    · exact ⟨h.woken item hitem, h.counted item (List.mem_append_right _ hitem)⟩
    · have hmem := List.mem_of_find?_eq_some (Option.mem_toList.mp hitem)
      obtain ⟨hleft, hwhole⟩ := h.waiting item hmem
      exact ⟨told_of_left hleft hwhole, h.counted item (List.mem_append_left _ hmem)⟩

/-- **`OutputNotify`**.
SOURCE: mt_net.cpp:1396-1443 -/
theorem VerdictsSettled.output (h : VerdictsSettled link.send.count link) (hsafe : VerdictSafe link (.output results)) :
    VerdictsSettled link.send.count (link.outputNotify results) := by
  have hsent : VerdictsSettled link.send.count (link.sendCache none results).1 :=
    h.sendCache le_rfl (fun r hr => by cases hr) hsafe.length hsafe.waiting
  unfold VerdictLink.outputNotify
  dsimp only
  split
  · rename_i hfails
    apply hsent.destroy
    intro _ item hitem
    have hnone : ∀ r ∈ (none : Option (ℕ × List UInt8)), r.1 = link.send.count := fun r hr => by cases hr
    have hflushed := h.flushed hnone hsafe.length
    rcases List.mem_append.mp hitem with hitem | hitem
    · intro hall
      refine hsafe.woken hfails item hitem ?_
      rwa [h.handed_woken hflushed (fun r hr => by cases hr) hitem] at hall
    · -- a handler that was notified in the same call has a datagram that was cut
      obtain ⟨old, hold, heq, -, htcp⟩ := hflushed.sent item hitem
      have hid : old.id = item.id := congrArg Prod.fst heq
      have hrequest : old.request = item.request := congrArg Prod.snd heq
      have hwritten : (link.sendCache none results).1.send.written =
        link.send.written ++ link.taken none results := rfl
      rw [hwritten, ← hid, ← hrequest, ← (h.waiting old hold).2, handed_append, Ne, List.append_cancel_left_eq]
      intro hall
      have hno := (hsafe.waiting old hold hall).1
      rw [notified_of_failed hno (h.queued hno) (hsafe.length hno) hfails] at hitem
      cases hitem
  · exact hsent

/-- A new request has the next number, and its handler may have an error. -/
theorem VerdictsSettled.next (h : VerdictsSettled (link.send.count + 1) link) (err_no : RcType) :
    VerdictsSettled (link.send.count + 1) { link with
      send := { link.send with count := link.send.count + 1 }
      err_no := Function.update link.err_no link.send.count err_no } where
  nodup := h.nodup
  counted item hitem := Nat.lt_succ_of_lt (h.counted item hitem)
  written := h.written
  waiting := h.waiting
  woken item hitem := by
    have hlt := h.counted item (List.mem_append_right _ hitem)
    have htold := h.woken item hitem
    unfold Told at htold ⊢
    dsimp only
    rwa [Function.update_of_ne (Nat.ne_of_lt hlt)]
  queued := h.queued

/-- A handler waits behind the others. -/
theorem VerdictsSettled.wait (h : VerdictsSettled n link) (hid : item.id < link.send.count)
    (hnew : item.id ∉ (link.send.wait_send ++ link.woken).map (·.id)) (hleft : item.getSendData ≠ [])
    (hwhole : handed link.send.written item.id ++ item.getSendData = item.request)
    (hqueued : link.udp = false → Queued (link.send.wait_send ++ [item])) :
    VerdictsSettled n { link with send := { link.send with wait_send := link.send.wait_send ++ [item] } } where
  nodup := by
    dsimp only
    rw [List.append_assoc, List.singleton_append, List.map_append, List.map_cons]
    rw [List.map_append] at hnew
    apply (List.perm_middle.nodup_iff).mpr
    rw [List.nodup_cons, ← List.map_append]
    exact ⟨by rwa [List.map_append], h.nodup⟩
  counted other hother := by
    dsimp only at hother
    rw [List.append_assoc, List.singleton_append] at hother
    rcases List.mem_cons.mp (List.perm_middle.subset hother) with rfl | hother
    · exact hid
    · exact h.counted other hother
  written := h.written
  waiting other hother := by
    rcases List.mem_append.mp hother with hother | hother
    · exact h.waiting other hother
    · rw [List.mem_singleton.mp hother]
      exact ⟨hleft, hwhole⟩
  woken := h.woken
  queued := hqueued

/-- What `WaitSend` says of a request that it did not wait for. -/
structure VerdictGiven (id : ℕ) (data : List UInt8) (r : VerdictLink × Option (SendHandler × RcType)) :
    Prop where
  settled : VerdictsSettled r.1.send.count r.1
  verdict : ∀ verdict ∈ r.2, verdict.1.id = id ∧ verdict.1.request = data ∧
    (verdict.2 = .success ∧ handed r.1.send.written id = data ∨
      verdict.2 = .sendFail ∧ handed r.1.send.written id ≠ data)

/-- **`WaitSend`** until the handler sleeps.
SOURCE: mt_net.cpp:322-347 -/
theorem VerdictsSettled.waitSend (h : VerdictsSettled link.send.count link) {data : List UInt8} {err_no : RcType}
    (hsafe : VerdictSafe link (.request data err_no results)) (hdata : data ≠ []) :
    VerdictGiven link.send.count data (link.waitSend data err_no results) := by
  have hfresh : ∀ r ∈ some (link.send.count, data), r.1 = link.send.count := by
    rintro r ⟨⟩
    rfl
  have hsent : VerdictsSettled (link.send.count + 1) (link.sendCache (some (link.send.count, data)) results).1 :=
    h.sendCache (Nat.le_succ _) (fun r hr => ⟨hfresh r hr, Nat.lt_succ_self _⟩) hsafe.length hsafe.waiting
  have hflushed := h.flushed hfresh hsafe.length
  obtain ⟨k, hk, hbytes, hret⟩ := hflushed.fresh _ rfl
  have hcount := sendCache_count link (some (link.send.count, data)) results
  have hhanded : handed (link.sendCache (some (link.send.count, data)) results).1.send.written link.send.count =
      data.take k := by
    have hwritten : (link.sendCache (some (link.send.count, data)) results).1.send.written =
        link.send.written ++ link.taken (some (link.send.count, data)) results := rfl
    have hnone : handed link.send.written link.send.count = [] :=
      handed_eq_nil fun b hb heq => Nat.lt_irrefl _ (heq ▸ h.written b hb)
    rw [hwritten, handed_append, hnone, hbytes, List.nil_append]
  have hnil : 0 < (link.sendCache (some (link.send.count, data)) results).2 →
      (link.sendCache (some (link.send.count, data)) results).1.send.wait_send = [] :=
    (sendCache_waiting h.queued (some (link.send.count, data)) results).sent
  unfold VerdictLink.waitSend
  rw [if_neg hdata]
  unfold SendHandler.numbered
  dsimp only
  generalize link.sendCache (some (link.send.count, data)) results = r at *
  obtain ⟨sent, ret⟩ := r
  dsimp only at hsent hret hcount hhanded hnil hk ⊢
  rw [← hcount] at hsent hhanded ⊢
  have hnext := hsent.next err_no
  rcases hret with rfl | ⟨rfl, hfails⟩
  · -- the socket takes `k` bytes of it
    have hleft : ((SendHandler.mk sent.send.count data 0).getSendData.drop k).length = 0 ↔ k = data.length := by
      unfold SendHandler.getSendData
      rw [List.length_drop, List.length_drop]
      dsimp only
      omega
    rw [if_neg (by omega), Int.toNat_natCast, skipSendPos_getSendData, waitRest_natCast _ hk]
    by_cases hall : k = data.length
    · rw [if_pos (hleft.mpr hall), if_pos hall]
      refine ⟨hnext, ?_⟩
      rintro verdict ⟨⟩
      rw [hall, List.take_length] at hhanded
      exact ⟨rfl, rfl, Or.inl ⟨rfl, hhanded⟩⟩
    · rw [if_neg fun hzero => hall (hleft.mp hzero), if_neg hall]
      refine ⟨?_, fun verdict hverdict => by cases hverdict⟩
      have hrest : (SendHandler.mk sent.send.count data k).getSendData = data.drop k := rfl
      have hmore : data.drop k ≠ [] := fun hempty => hall (Nat.le_antisymm hk (List.drop_eq_nil_iff.mp hempty))
      refine hnext.wait (Nat.lt_succ_self sent.send.count) ?_ hmore ?_ ?_
      · intro hin
        obtain ⟨item, hitem, hid⟩ := List.mem_map.mp hin
        exact Nat.lt_irrefl _ (hid ▸ hsent.counted item hitem)
      · rw [hrest]
        exact (congrArg (· ++ data.drop k) hhanded).trans (List.take_append_drop k data)
      · intro hudp
        have hqueued := waitRest_waiting (hsent.queued hudp) data hnil
        rwa [waitRest_natCast _ hk, if_neg hall] at hqueued
  · -- the socket refuses it
    rw [if_pos hfails]
    unfold SendLink.waitRest
    rw [if_pos hfails]
    refine ⟨hnext, ?_⟩
    rintro verdict ⟨⟩
    rw [List.take_zero] at hhanded
    exact ⟨rfl, rfl, Or.inr ⟨rfl, fun hall => hdata (hall.symm.trans hhanded)⟩⟩

/-- **`WaitSend`** when the thread goes on: it says what was to be said of the handler.
SOURCE: mt_net.cpp:349-367 -/
theorem VerdictsSettled.resume (h : VerdictsSettled n link) (id : ℕ) :
    VerdictsSettled n (link.resume id).1 ∧ (link.resume id).1.send.count = link.send.count ∧
      ∀ verdict ∈ (link.resume id).2,
        (verdict.2 = .success ↔ handed (link.resume id).1.send.written verdict.1.id = verdict.1.request) ∧
        (handed (link.resume id).1.send.written verdict.1.id = verdict.1.request → verdict.2 ≠ .sendFail) := by
  unfold VerdictLink.resume
  cases hfind : (link.send.wait_send ++ link.woken).find? (·.id == id) with
  | none => exact ⟨h, rfl, fun verdict hverdict => by cases hverdict⟩
  | some item =>
    have hfound : (item.id == id) = true := List.find?_some (p := fun other : SendHandler => other.id == id) hfind
    have hid : item.id = id := beq_iff_eq.mp hfound
    have htold : Told link item := by
      rcases List.mem_append.mp (List.mem_of_find?_eq_some hfind) with hitem | hitem
      · exact told_of_left (h.waiting item hitem).1 (h.waiting item hitem).2
      · exact h.woken item hitem
    have hafter : VerdictsSettled n { link with
        send := link.send.timeout id, woken := link.woken.eraseP (·.id == id) } := by
      have hsub : (link.woken.eraseP (·.id == id)).Sublist link.woken := List.eraseP_sublist
      apply h.timeout
      · exact h.nodup.sublist ((List.eraseP_sublist.append hsub).map _)
      · intro other hother
        have hmem := hsub.subset hother
        exact ⟨h.woken other hmem, h.counted other (List.mem_append_right _ hmem)⟩
    unfold Told at htold
    rw [hid] at htold
    dsimp only
    split
    · rename_i herr
      refine ⟨hafter, rfl, ?_⟩
      rintro verdict ⟨⟩
      have hnot : ¬ handed link.send.written id = item.request := fun hall => herr (htold.mpr hall).1
      rw [← hid] at hnot
      exact ⟨⟨fun hsuccess => absurd hsuccess (hid ▸ herr), fun hall => absurd hall hnot⟩, fun hall => absurd hall hnot⟩
    · rename_i herr
      have hsuccess : link.err_no id = .success := not_not.mp herr
      rw [hsuccess, ← hid] at htold
      by_cases hempty : item.getSendData = []
      · rw [if_pos (List.length_eq_zero_iff.mpr hempty)]
        refine ⟨hafter, rfl, ?_⟩
        rintro verdict ⟨⟩
        exact ⟨⟨fun _ => htold.mp ⟨rfl, hempty⟩, fun _ => rfl⟩, fun _ hfail => by cases hfail⟩
      · rw [if_neg fun hzero => hempty (List.length_eq_zero_iff.mp hzero)]
        refine ⟨hafter, rfl, ?_⟩
        rintro verdict ⟨⟩
        have hnot : ¬ handed link.send.written item.id = item.request := fun hall => hempty (htold.mpr hall).2
        exact ⟨⟨fun hsuccess => (by cases hsuccess), fun hall => absurd hall hnot⟩, fun hall => absurd hall hnot⟩

/-- The invariant is kept by a step. -/
theorem VerdictsSettled.step (h : VerdictsSettled link.send.count link) (hsafe : VerdictSafe link op) :
    VerdictsSettled (link.step op).1.send.count (link.step op).1 := by
  cases op with
  | resume id =>
    obtain ⟨hafter, hcount, -⟩ := h.resume id
    exact hcount.symm ▸ hafter
  | request data err_no results =>
    unfold VerdictLink.step
    dsimp only
    split
    · exact h
    · by_cases hdata : data = []
      · unfold VerdictLink.waitSend
        rw [if_pos hdata]
        exact h
      · exact (h.waitSend hsafe hdata).settled
  | output results =>
    unfold VerdictLink.step
    dsimp only
    split
    · exact h
    · have hcount : (link.outputNotify results).send.count = link.send.count := by
        unfold VerdictLink.outputNotify
        dsimp only
        split
        · exact sendCache_count link none results
        · exact sendCache_count link none results
      exact hcount.symm ▸ h.output hsafe
  | dispatch id =>
    unfold VerdictLink.step
    dsimp only
    split
    · exact h
    · exact h.dispatch id
  | destroy errno =>
    unfold VerdictLink.step
    dsimp only
    split
    · exact h
    · exact h.destroy hsafe.woken

/-- `WaitSend` does not return in the step. -/
theorem VerdictRight.of_none (hnone : (link.step op).2 = none) : VerdictRight link op := by
  constructor
  all_goals
    intro verdict hverdict
    rw [hnone] at hverdict
    cases hverdict

/-- What `WaitSend` returns in a step is right. -/
theorem VerdictsSettled.right (h : VerdictsSettled link.send.count link) (hsafe : VerdictSafe link op) :
    VerdictRight link op := by
  cases op with
  | resume id =>
    obtain ⟨-, -, hright⟩ := h.resume id
    exact ⟨fun verdict hverdict => (hright verdict hverdict).1, fun verdict hverdict => (hright verdict hverdict).2⟩
  | request data err_no results =>
    suffices hright : ∀ verdict ∈ (link.step (.request data err_no results)).2,
        (verdict.2 = .success ∧
          handed (link.step (.request data err_no results)).1.send.written verdict.1.id = verdict.1.request) ∨
        (verdict.2 = .sendFail ∧
          handed (link.step (.request data err_no results)).1.send.written verdict.1.id ≠ verdict.1.request) by
      refine ⟨fun verdict hverdict => ?_, fun verdict hverdict hall => ?_⟩
      · rcases hright verdict hverdict with ⟨hrc, hall⟩ | ⟨hrc, hall⟩
        · exact iff_of_true hrc hall
        · rw [hrc]
          exact iff_of_false (fun heq => by cases heq) hall
      · rcases hright verdict hverdict with ⟨hrc, -⟩ | ⟨-, hnot⟩
        · rw [hrc]
          exact fun heq => by cases heq
        · exact absurd hall hnot
    unfold VerdictLink.step
    dsimp only
    split
    · exact fun verdict hverdict => by cases hverdict
    · by_cases hdata : data = []
      · unfold VerdictLink.waitSend
        rw [if_pos hdata]
        exact fun verdict hverdict => by cases hverdict
      · intro verdict hverdict
        obtain ⟨hid, hrequest, hverdict⟩ := (h.waitSend hsafe hdata).verdict verdict hverdict
        rw [hid, hrequest]
        exact hverdict
  | output results => exact VerdictRight.of_none rfl
  | dispatch id => exact VerdictRight.of_none rfl
  | destroy errno => exact VerdictRight.of_none rfl

theorem verdictsSettled_init (udp : Bool) : VerdictsSettled 0 (VerdictLink.init udp) where
  nodup := List.nodup_nil
  counted _ hitem := nomatch hitem
  written _ hb := nomatch hb
  waiting _ hitem := nomatch hitem
  woken _ hitem := nomatch hitem
  queued _ := ⟨fun _ hitem => (nomatch hitem), fun _ hitem => (nomatch hitem)⟩

/-- **`WaitSend` says of every request whether it was sent**, if the socket of a TCP link takes less than 2^32 bytes
at once, no request that waits is sent over a UDP link or with an error from an earlier call, and the link does not
fail while the thread of a handler whose request was sent has not gone on.
SOURCE: mt_net.cpp:322-368, 701-719, 953-1080 -/
theorem send_verdicts_right (udp : Bool) {ops : List VerdictStep}
    (hsafe : AllSteps (fun link op => (link.step op).1) VerdictSafe (VerdictLink.init udp) ops) :
    AllSteps (fun link op => (link.step op).1) VerdictRight (VerdictLink.init udp) ops :=
  AllSteps.imp (I := fun link => VerdictsSettled link.send.count link) (fun _ _ h hstep => h.step hstep)
    (fun _ _ h hstep => h.right hstep) (verdictsSettled_init udp) hsafe

/-- A request over a TCP link that is refused, then sent in two parts, and then is a success. -/
theorem send_verdict_right :
    AllSteps (fun link op => (link.step op).1) VerdictRight (VerdictLink.init false)
      [.request [1, 2, 3] .success [.failed true], .output [.accepted 2], .output [.accepted 1], .resume 0] := by
  apply send_verdicts_right
  decide

/-- A datagram that is refused at first, and then is sent, is reported as `RC_SEND_FAIL`. -/
theorem flushed_datagram_fails :
    ¬ ∀ (udp : Bool) (ops : List VerdictStep),
      AllSteps (fun link op => (link.step op).1) VerdictRight (VerdictLink.init udp) ops := by
  intro h
  obtain ⟨-, -, hright, -⟩ := h true [.request [1] .success [.failed true], .output [.accepted 1], .resume 0]
  exact hright.flushed (⟨0, [1], 0⟩, .sendFail) rfl rfl rfl

end FStack.Analysis
