import FStack.Model.Receive

/-!
# Every received packet has one owner

`process_packets` hands each packet of a burst to the stack, to KNI, to the transmission queue or
to a dispatch ring, or frees it.  The packets whose life it ends are the packets of the burst, each
once.  The dispatcher's answer is used as an index of `dispatch_ring` after a test of its upper end
and of two negative values only, so the index is good exactly if no answer is below these.
-/

set_option autoImplicit false

namespace FStack.Analysis

open FStack.Model

/-- The input packet whose life an event ends. -/
def consumed : RxEvent → Option ℕ
  | .veth m | .kni m | .send m | .store _ m | .free m => some m.id
  | .cloneStore _ _ | .cloneKni _ | .cloneFree _ | .access _ => none

/-- The index of a use of `dispatch_ring[port_id]`. -/
def accessed : RxEvent → Option ℤ
  | .access i => some i
  | _ => none

/-- Each packet of the burst ends in exactly one way, and the rings are used within their bounds. -/
def ConsumesOnce (nb_queues : ℕ) (bufs : List Mbuf) (evs : List RxEvent) : Prop :=
  evs.filterMap consumed = bufs.map Mbuf.id ∧
    ∀ i ∈ evs.filterMap accessed, 0 ≤ i ∧ i < nb_queues

/-- The answer about the packet, if a dispatcher is asked, is not below `FF_DISPATCH_RESPONSE`. -/
def VerdictInRange (conf : RxConf) (queue_id : ℕ) (pkts_from_ring : Bool) (k : ℕ) (m : Mbuf) :
    Prop :=
  pkts_from_ring = false → ∀ v, dispatcherVerdict conf queue_id k m = some v →
    FF_DISPATCH_RESPONSE ≤ v.ret

theorem ffAddVlanTag_id (m : Mbuf) : (ffAddVlanTag m).id = m.id := by
  rw [ffAddVlanTag]
  split
  · rfl
  · split <;> rfl

/-! ## A classified packet -/

/-- INTERNAL: a projection that ignores what happens to copies sees nothing of the fan-out. -/
theorem filterMap_fanOut_eq_nil {β : Type} {f : RxEvent → Option β}
    (hstore : ∀ i c, f (.cloneStore i c) = none) (hfree : ∀ c, f (.cloneFree c) = none)
    (haccess : ∀ i, f (.access i) = none) (conf : RxConf) (queue_id : ℕ) (env : RxEnv) (m : Mbuf) :
    (fanOut conf queue_id env m).filterMap f = [] := by
  rw [fanOut, List.filterMap_flatMap, List.flatMap_eq_nil_iff]
  intro j _
  split
  · rfl
  · split
    · rfl
    · split
      · simp [hstore, haccess]
      · simp [hfree, haccess]

theorem filterMap_kniCopy_eq_nil {β : Type} {f : RxEvent → Option β}
    (hkni : ∀ c, f (.cloneKni c) = none) (conf : RxConf) (env : RxEnv) (m : Mbuf) :
    (kniCopy conf env m).filterMap f = [] := by
  rw [kniCopy]
  split
  · split
    · rfl
    · simp [hkni]
  · rfl

/-- INTERNAL: the copies use the rings of the other queues.
SOURCE: lib/ff_dpdk_if.c:1821-1841 -/
theorem fanOut_accessed {conf : RxConf} {queue_id : ℕ} {env : RxEnv} {m : Mbuf} {i : ℤ}
    (hi : i ∈ (fanOut conf queue_id env m).filterMap accessed) : 0 ≤ i ∧ i < conf.nb_queues := by
  rw [fanOut, List.filterMap_flatMap, List.mem_flatMap] at hi
  obtain ⟨j, hj, hi⟩ := hi
  rw [List.mem_range] at hj
  split at hi
  · cases hi
  · split at hi
    · cases hi
    · have hij : i = j := by
        split at hi
        · simpa [accessed] using hi
        · simpa [accessed] using hi
      omega

theorem processClassified_consumed (conf : RxConf) (queue_id : ℕ) (pkts_from_ring : Bool)
    (env : RxEnv) (m : Mbuf) (filter : FilterReturn) :
    (processClassified conf queue_id pkts_from_ring env m filter).filterMap consumed = [m.id] := by
  rw [processClassified]
  split
  · have hfan : (if pkts_from_ring = true then [] else fanOut conf queue_id env m).filterMap
        consumed = [] := by
      split
      · rfl
      · exact filterMap_fanOut_eq_nil (fun _ _ => rfl) (fun _ => rfl) (fun _ => rfl) _ _ _ _
    rw [List.filterMap_append, List.filterMap_append, hfan,
      filterMap_kniCopy_eq_nil (fun _ => rfl)]
    rfl
  · split
    · simp [consumed, ffAddVlanTag_id]
    · rfl

theorem processClassified_accessed {conf : RxConf} {queue_id : ℕ} {pkts_from_ring : Bool}
    {env : RxEnv} {m : Mbuf} {filter : FilterReturn} {i : ℤ}
    (hi : i ∈ (processClassified conf queue_id pkts_from_ring env m filter).filterMap accessed) :
    0 ≤ i ∧ i < conf.nb_queues := by
  rw [processClassified] at hi
  split at hi
  · rw [List.filterMap_append, List.filterMap_append, filterMap_kniCopy_eq_nil (fun _ => rfl),
      List.append_nil, List.mem_append] at hi
    cases hi with
    | inl hfan =>
      split at hfan
      · cases hfan
      · exact fanOut_accessed hfan
    | inr hveth => cases hveth
  · split at hi
    · cases hi
    · cases hi

/-! ## One packet -/

section Packet

variable (conf : RxConf) (queue_id : ℕ) (pkts_from_ring : Bool)
  (filter : Memory → ℕ → FilterReturn) (env : RxEnv) (k : ℕ) (m : Mbuf)

/-- INTERNAL: one round of the loop.  The classification always gives an answer here.
SOURCE: lib/ff_dpdk_if.c:1745-1876 -/
theorem processPacket_spec : ∃ evs,
    processPacket conf queue_id pkts_from_ring (fun mem len => some (filter mem len)) env k m =
      some evs ∧ evs.filterMap consumed = [m.id] ∧
    ((∀ i ∈ evs.filterMap accessed, 0 ≤ i ∧ i < conf.nb_queues) ↔
      VerdictInRange conf queue_id pkts_from_ring k m) := by
  rw [processPacket]
  cases hv : (if pkts_from_ring then none else dispatcherVerdict conf queue_id k m) with
  | none =>
    refine ⟨_, rfl, processClassified_consumed _ _ _ _ _ _, ?_⟩
    refine iff_of_true (fun i hi => processClassified_accessed hi) ?_
    intro hring v hsome
    rw [hring, if_neg (by simp), hsome] at hv
    cases hv
  | some v =>
    have hring : pkts_from_ring = false := by
      cases hr : pkts_from_ring with
      | true => rw [hr, if_pos rfl] at hv; cases hv
      | false => rfl
    rw [hring, if_neg (by simp)] at hv
    have hrange : VerdictInRange conf queue_id pkts_from_ring k m ↔ FF_DISPATCH_RESPONSE ≤ v.ret := by
      constructor
      · intro h
        exact h hring v hv
      · intro h _ v' hv'
        rw [hv] at hv'
        cases hv'
        exact h
    rw [hrange]
    dsimp only
    split
    · -- `FF_DISPATCH_RESPONSE`
      rename_i hresp
      refine ⟨_, rfl, by simp [consumed, ffAddVlanTag_id], iff_of_true ?_ (by omega)⟩
      intro i hi
      cases hi
    split
    · -- the packet is freed
      rename_i herr
      refine ⟨_, rfl, rfl, iff_of_true ?_ ?_⟩
      · intro i hi
        cases hi
      · rw [FF_DISPATCH_RESPONSE]
        rw [FF_DISPATCH_ERROR] at herr
        omega
    split
    · -- the answer is an index
      rename_i hresp herr hother
      have hacc : (if env.enqueue v.ret = true then
          [RxEvent.access v.ret, .store v.ret { m with frame := { m.frame with
            head := ⟨v.mem, m.frame.head.data_len⟩ } }]
          else [RxEvent.access v.ret, .free { m with frame := { m.frame with
            head := ⟨v.mem, m.frame.head.data_len⟩ } }]).filterMap accessed = [v.ret] := by
        split <;> rfl
      refine ⟨_, rfl, ?_, ?_⟩
      · split <;> rfl
      · rw [hacc]
        simp only [List.mem_singleton, forall_eq]
        rw [FF_DISPATCH_RESPONSE] at hresp ⊢
        rw [FF_DISPATCH_ERROR] at herr
        omega
    · rename_i hresp herr hsame
      refine ⟨_, rfl, processClassified_consumed _ _ _ _ _ _,
        iff_of_true (fun i hi => processClassified_accessed hi) ?_⟩
      rw [FF_DISPATCH_RESPONSE]
      omega

end Packet

/-! ## The burst -/

theorem processPackets_spec (conf : RxConf) (queue_id : ℕ) (pkts_from_ring : Bool)
    (filter : Memory → ℕ → FilterReturn) (env : ℕ → RxEnv) (k : ℕ) (bufs : List Mbuf) : ∃ evs,
    processPackets conf queue_id pkts_from_ring (fun mem len => some (filter mem len)) env k bufs =
      some evs ∧ evs.filterMap consumed = bufs.map Mbuf.id ∧
    ((∀ i ∈ evs.filterMap accessed, 0 ≤ i ∧ i < conf.nb_queues) ↔
      ∀ i m, bufs[i]? = some m → VerdictInRange conf queue_id pkts_from_ring (k + i) m) := by
  induction bufs generalizing k with
  | nil =>
    refine ⟨[], rfl, rfl, iff_of_true ?_ ?_⟩
    · intro i hi
      cases hi
    · intro i m hi
      cases hi
  | cons m bufs ih =>
    obtain ⟨evs, hevs, hcons, hacc⟩ :=
      processPacket_spec conf queue_id pkts_from_ring filter (env k) k m
    obtain ⟨rest, hrest, hcons', hacc'⟩ := ih (k + 1)
    refine ⟨evs ++ rest, by simp [processPackets, hevs, hrest], ?_, ?_⟩
    · rw [List.filterMap_append, hcons, hcons', List.map_cons, List.singleton_append]
    · rw [List.filterMap_append, List.forall_mem_append, hacc, hacc']
      constructor
      · rintro ⟨hhead, htail⟩ i m' hi
        cases i with
        | zero =>
          cases hi
          exact hhead
        | succ i =>
          have := htail i m' hi
          rwa [show k + 1 + i = k + (i + 1) by omega] at this
      · intro h
        refine ⟨h 0 m rfl, ?_⟩
        intro i m' hi
        have := h (i + 1) m' hi
        rwa [show k + (i + 1) = k + 1 + i by omega] at this

/-- For every burst, every dispatcher and every outcome of the classification, of KNI, of the
allocations and of the rings, `process_packets` ends the life of each packet exactly once and stays
within the rings exactly if no answer of the dispatcher is below `FF_DISPATCH_RESPONSE`.
SOURCE: lib/ff_dpdk_if.c:1737-1877 -/
theorem processPackets_consumesOnce_iff (conf : RxConf) (queue_id : ℕ) (pkts_from_ring : Bool)
    (filter : Memory → ℕ → FilterReturn) (env : ℕ → RxEnv) (bufs : List Mbuf) : ∃ evs,
    processPackets conf queue_id pkts_from_ring (fun mem len => some (filter mem len)) env 0 bufs =
      some evs ∧
    (ConsumesOnce conf.nb_queues bufs evs ↔
      ∀ k m, bufs[k]? = some m → VerdictInRange conf queue_id pkts_from_ring k m) := by
  obtain ⟨evs, hevs, hcons, hacc⟩ :=
    processPackets_spec conf queue_id pkts_from_ring filter env 0 bufs
  simp only [Nat.zero_add] at hacc
  refine ⟨evs, hevs, ?_⟩
  rw [ConsumesOnce, ← hacc]
  simp only [hcons, true_and]

/-- Two queues and a dispatcher that answers -3. -/
def minusThreeConf : RxConf :=
  { nb_queues := 2
    packet_dispatcher := some fun _ mem len _ _ => ⟨-3, mem, len⟩
    packet_dispatcher_with_context := none
    is_primary := true
    enable_kni := false
    kni_accept := false
    knictl_action := .default }

/-- A frame of 60 zero bytes. -/
def zeroFrame : Frame := ⟨⟨fun _ => 0, 60⟩, [], 60, none, RTE_PKTMBUF_HEADROOM⟩

/-- Everything succeeds. -/
def richEnv : RxEnv := ⟨fun _ => true, fun _ _ _ => 0, fun _ => true⟩

/-- The answer is used as the index of a ring.
SOURCE: lib/ff_dpdk_if.c:1793-1800 -/
theorem minusThreeConf_out_of_range : ∃ evs,
    processPackets minusThreeConf 0 false (fun _ _ => some .unknown) (fun _ => richEnv) 0
      [⟨0, zeroFrame⟩] = some evs ∧ ¬ ConsumesOnce 2 [⟨0, zeroFrame⟩] evs := by
  refine ⟨_, rfl, ?_⟩
  rintro ⟨-, hrange⟩
  have hmem : (-3 : ℤ) ∈ [(-3 : ℤ)] := List.mem_singleton.mpr rfl
  have := (hrange (-3) hmem).1
  omega

end FStack.Analysis
