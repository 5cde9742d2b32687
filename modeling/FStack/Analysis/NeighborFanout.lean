import FStack.Analysis.NeighborFrames
import FStack.Analysis.ReceiveOwnership

/-!
# Address resolution on every queue

The processes of a port receive packets and read their dispatch rings in any order.  A recognised
frame is given to the stack on the queue that receives it, and a copy goes to the ring of every
other queue, where it waits until it is given to the stack there.  `rxRun_reaches_iff` says which
frames of address resolution get to every queue.
-/

set_option autoImplicit false

namespace FStack.Analysis

open FStack.Model FStack.Prelude

variable {conf : RxConf} {l : List Mbuf} {id j : ℕ} {c : Mbuf} {f : Frame} {p : ℕ × Mbuf}
variable {k depth : ℕ} {filter : Memory → ℕ → Option FilterReturn}

/-- The packet that an event gives to the stack. -/
def vethOf : RxEvent → Option Mbuf
  | .veth m => some m
  | _ => none

/-- The packet that an event puts in the ring of queue `j`. -/
def storedIn (j : ℕ) : RxEvent → Option Mbuf
  | .store i m | .cloneStore i m => if i.toNat = j then some m else none
  | _ => none

/-! ## Events -/

/-- The state after a list of events. -/
theorem applyEvents (q : ℕ) (evs : List RxEvent) (st : RxState) :
    (evs.foldl (applyEvent q) st).received = st.received ∧
    (∀ j, (evs.foldl (applyEvent q) st).dispatch_ring j =
      st.dispatch_ring j ++ evs.filterMap (storedIn j)) ∧
    (evs.foldl (applyEvent q) st).delivered q = st.delivered q ++ evs.filterMap vethOf ∧
    ∀ j, j ≠ q → (evs.foldl (applyEvent q) st).delivered j = st.delivered j := by
  induction evs generalizing st with
  | nil => simp
  | cons ev evs ih =>
    obtain ⟨hrec, hring, hdel, hother⟩ := ih (applyEvent q st ev)
    rw [List.foldl_cons]
    -- what one event changes
    have hrec1 : (applyEvent q st ev).received = st.received := by
      cases ev <;> rfl
    have hring1 : ∀ j, (applyEvent q st ev).dispatch_ring j =
        st.dispatch_ring j ++ (storedIn j ev).toList := by
      intro j
      cases ev with
      | store i m =>
        by_cases hj : i.toNat = j
        · subst hj
          simp [applyEvent, storedIn]
        · simp [applyEvent, storedIn, hj, Ne.symm hj]
      | cloneStore i m =>
        by_cases hj : i.toNat = j
        · subst hj
          simp [applyEvent, storedIn]
        · simp [applyEvent, storedIn, hj, Ne.symm hj]
      | veth m => simp [applyEvent, storedIn]
      | kni m => simp [applyEvent, storedIn]
      | send m => simp [applyEvent, storedIn]
      | free m => simp [applyEvent, storedIn]
      | cloneKni m => simp [applyEvent, storedIn]
      | cloneFree m => simp [applyEvent, storedIn]
      | access i => simp [applyEvent, storedIn]
    have hdel1 : (applyEvent q st ev).delivered q = st.delivered q ++ (vethOf ev).toList := by
      cases ev <;> simp [applyEvent, vethOf]
    have hother1 : ∀ j, j ≠ q → (applyEvent q st ev).delivered j = st.delivered j := by
      intro j hj
      cases ev <;> simp [applyEvent, hj]
    refine ⟨hrec.trans hrec1, ?_, ?_, ?_⟩
    · intro j
      rw [hring j, hring1 j, List.append_assoc]
      congr 1
      cases h : storedIn j ev with
      | none => simp [h]
      | some m => simp [h]
    · rw [hdel, hdel1, List.append_assoc]
      congr 1
      cases h : vethOf ev with
      | none => simp [h]
      | some m => simp [h]
    · intro j hj
      rw [hother j hj, hother1 j hj]

/-- One element of a range is hit. -/
theorem flatMap_range_single {α : Type} (n j : ℕ) (g : ℕ → List α)
    (hg : ∀ i < n, i ≠ j → g i = []) :
    (List.range n).flatMap g = if j < n then g j else [] := by
  induction n with
  | zero => simp
  | succ n ih =>
    rw [List.range_succ, List.flatMap_append, ih (fun i hi => hg i (by omega))]
    simp only [List.flatMap_cons, List.flatMap_nil, List.append_nil]
    by_cases hj : j = n
    · subst hj
      simp
    · rw [hg n (by omega) (Ne.symm hj), List.append_nil]
      by_cases hlt : j < n
      · rw [if_pos hlt, if_pos (by omega)]
      · rw [if_neg hlt, if_neg (by omega)]

/-- Each other queue's ring gets one copy.
SOURCE: lib/ff_dpdk_if.c:1821-1841 -/
theorem fanOut_stored {q : ℕ} {env : RxEnv} {m : Mbuf} (hclone : ∀ d, env.clone d = true)
    (henq : ∀ i, env.enqueue i = true) (j : ℕ) :
    (fanOut conf q env m).filterMap (storedIn j) =
      if j < conf.nb_queues ∧ j ≠ q then (pktmbufDeepClone env (some j) m).toList else [] := by
  have hsome : ∀ i, ∃ c, pktmbufDeepClone env (some i) m = some c := by
    intro i
    rw [pktmbufDeepClone, if_pos (hclone _)]
    exact ⟨_, rfl⟩
  rw [fanOut, List.filterMap_flatMap, flatMap_range_single conf.nb_queues j]
  · by_cases hj : j < conf.nb_queues
    · rw [if_pos hj]
      by_cases hq : j = q
      · rw [if_pos hq, if_neg (by omega)]
        rfl
      · obtain ⟨c, hc⟩ := hsome j
        rw [if_neg hq, hc]
        dsimp only
        rw [if_pos (henq j), if_pos ⟨hj, hq⟩]
        simp [List.filterMap_cons, storedIn]
    · rw [if_neg hj, if_neg (by omega)]
  · intro i _ hi
    obtain ⟨c, hc⟩ := hsome i
    by_cases hq : i = q
    · rw [if_pos hq]
      rfl
    · rw [if_neg hq, hc]
      dsimp only
      rw [if_pos (henq i)]
      simp [storedIn, hi]

theorem processClassified_veth (conf : RxConf) (q : ℕ) (ring : Bool) (env : RxEnv) (m : Mbuf)
    (r : FilterReturn) : (processClassified conf q ring env m r).filterMap vethOf =
      if (r = .arp ∨ r = .ndp) ∨ toKni conf r = false then [m] else [] := by
  rw [processClassified]
  by_cases hr : r = .arp ∨ r = .ndp
  · have hfan : (if ring = true then [] else fanOut conf q env m).filterMap vethOf = [] := by
      split
      · rfl
      · exact filterMap_fanOut_eq_nil (fun _ _ => rfl) (fun _ => rfl) (fun _ => rfl) _ _ _ _
    rw [if_pos hr, if_pos (Or.inl hr), List.filterMap_append, List.filterMap_append, hfan,
      filterMap_kniCopy_eq_nil (fun _ => rfl)]
    rfl
  · rw [if_neg hr]
    cases hk : toKni conf r with
    | true => simp [hr, vethOf]
    | false => simp [vethOf]

/-- A packet from a ring goes to no ring.
SOURCE: lib/ff_dpdk_if.c:1819 -/
theorem processClassified_ring_stored (conf : RxConf) (q : ℕ) (env : RxEnv) (m : Mbuf)
    (r : FilterReturn) (j : ℕ) :
    (processClassified conf q true env m r).filterMap (storedIn j) = [] := by
  rw [processClassified]
  split
  · rw [if_pos rfl, List.nil_append, List.filterMap_append,
      filterMap_kniCopy_eq_nil (fun _ => rfl)]
    rfl
  · split <;> rfl

theorem processClassified_nic_stored {q : ℕ} {env : RxEnv} {m : Mbuf}
    (hclone : ∀ d, env.clone d = true) (henq : ∀ i, env.enqueue i = true) (r : FilterReturn) (j : ℕ) :
    (processClassified conf q false env m r).filterMap (storedIn j) =
      if (r = .arp ∨ r = .ndp) ∧ j < conf.nb_queues ∧ j ≠ q then
        (pktmbufDeepClone env (some j) m).toList else [] := by
  rw [processClassified]
  by_cases hr : r = .arp ∨ r = .ndp
  · rw [if_pos hr, if_neg (by simp), List.filterMap_append, List.filterMap_append,
      fanOut_stored hclone henq, filterMap_kniCopy_eq_nil (fun _ => rfl)]
    simp [hr, storedIn]
  · have hnot : ¬ ((r = .arp ∨ r = .ndp) ∧ j < conf.nb_queues ∧ j ≠ q) := fun h => hr h.1
    rw [if_neg hr, if_neg hnot]
    split <;> rfl

/-! ## A burst from a ring -/

/-- The packets of a list that are copies of a received one. -/
def copiesOf (l : List Mbuf) (id : ℕ) : List Mbuf := l.filter fun c => decide (c.id = id)

theorem copiesOf_append (l l' : List Mbuf) (id : ℕ) :
    copiesOf (l ++ l') id = copiesOf l id ++ copiesOf l' id := List.filter_append ..

theorem copiesOf_eq_nil (h : ∀ c ∈ l, c.id ≠ id) :
    copiesOf l id = [] := by
  rw [copiesOf, List.filter_eq_nil_iff]
  intro c hc
  simpa using h c hc

theorem mem_copiesOf :
    c ∈ copiesOf l id ↔ c ∈ l ∧ c.id = id := by
  simp [copiesOf]

theorem processPacket_of_no_verdict {q : ℕ} {ring : Bool} {m : Mbuf} {env : RxEnv}
    (h : ring = true ∨ dispatcherVerdict conf q k m = none) :
    processPacket conf q ring filter env k m =
      (filter m.frame.head.mem m.frame.head.data_len.toNat).map
        (processClassified conf q ring env m) := by
  have hnone : (if ring = true then none else dispatcherVerdict conf q k m) = none := by
    split
    · rfl
    · rename_i hring
      cases h with
      | inl htrue => exact absurd htrue hring
      | inr hnone => exact hnone
  rw [processPacket, hnone]

/-- What a burst from a ring gives to the stack.  Nothing goes back to a ring, and every
packet that is sure to be recognised is delivered.
SOURCE: lib/ff_dpdk_if.c:1879-1893 -/
theorem processPackets_ring {q : ℕ} {env : ℕ → RxEnv} {bufs : List Mbuf} {evs : List RxEvent}
    (h : processPackets conf q true filter env k bufs = some evs) :
    (∀ j, evs.filterMap (storedIn j) = []) ∧ (evs.filterMap vethOf).Sublist bufs ∧
    ∀ id, (∀ c ∈ bufs, c.id = id → ∀ r,
        filter c.frame.head.mem c.frame.head.data_len.toNat = some r → r = .arp ∨ r = .ndp) →
      copiesOf (evs.filterMap vethOf) id = copiesOf bufs id := by
  induction bufs generalizing k evs with
  | nil =>
    cases h
    exact ⟨fun _ => rfl, List.Sublist.refl _, fun _ _ => rfl⟩
  | cons m bufs ih =>
    rw [processPackets, processPacket_of_no_verdict (Or.inl rfl)] at h
    cases hr : filter m.frame.head.mem m.frame.head.data_len.toNat with
    | none =>
      rw [hr] at h
      cases h
    | some r =>
      rw [hr] at h
      simp only [Option.map_some, Option.map_eq_some_iff] at h
      obtain ⟨rest, hrest, rfl⟩ := h
      obtain ⟨ihs, ihv, ihc⟩ := ih hrest
      refine ⟨?_, ?_, ?_⟩
      · intro j
        rw [List.filterMap_append, processClassified_ring_stored, ihs j]
        rfl
      · rw [List.filterMap_append, processClassified_veth]
        split
        · exact ihv.cons_cons m
        · exact ihv.cons m
      · intro id hrec
        have htail := ihc id (fun c hc => hrec c (List.mem_cons_of_mem m hc))
        rw [List.filterMap_append, processClassified_veth, copiesOf_append, htail]
        by_cases hid : m.id = id
        · rw [if_pos (Or.inl (hrec m List.mem_cons_self hid r hr))]
          simp [copiesOf, hid]
        · have hnil : copiesOf (if (r = .arp ∨ r = .ndp) ∨ toKni conf r = false then [m] else [])
              id = [] := by
            apply copiesOf_eq_nil
            intro c hc
            split at hc
            · rw [List.mem_singleton] at hc
              rw [hc]
              exact hid
            · cases hc
          rw [hnil]
          simp [copiesOf, hid]

/-! ## The two steps -/

def NoDispatcher (port : RxPort) : Prop :=
  ∀ q, (port.conf q).packet_dispatcher = none ∧ (port.conf q).packet_dispatcher_with_context = none

/-- What the reception of `f` on `q` adds to the ring of `j`. -/
def newCopies (port : RxPort) (env : RxEnv) (q : ℕ) (r : FilterReturn) (m : Mbuf) (j : ℕ) :
    List Mbuf :=
  if (r = .arp ∨ r = .ndp) ∧ j < port.nb_queues ∧ j ≠ q then
    (pktmbufDeepClone env (some j) m).toList else []

/-- What it gives to the stack of `q`. -/
def newDelivery (port : RxPort) (q : ℕ) (r : FilterReturn) (m : Mbuf) : List Mbuf :=
  if (r = .arp ∨ r = .ndp) ∨ toKni (port.conf q) r = false then [m] else []

/-- What the reception of `m` on `q`, as a packet of class `r`, changes. -/
structure ReceiveStep (port : RxPort) (env : RxEnv) (q : ℕ) (r : FilterReturn) (m : Mbuf)
    (st st' : RxState) : Prop where
  id_eq : m.id = st.received.length
  received : st'.received = st.received ++ [(q, m)]
  ring : ∀ j, st'.dispatch_ring j = st.dispatch_ring j ++ newCopies port env q r m j
  delivered : st'.delivered q = st.delivered q ++ newDelivery port q r m
  other : ∀ j, j ≠ q → st'.delivered j = st.delivered j

theorem receivePacket_spec {port : RxPort} (hnone : NoDispatcher port) {q : ℕ} {st st' : RxState}
    {env : RxEnv} (hclone : ∀ d, env.clone d = true) (henq : ∀ i, env.enqueue i = true)
    (h : receivePacket port depth st q f env = some st') :
    ∃ r, Classified (port.kni q) f r ∧
      ReceiveStep port env q r ⟨st.received.length, f⟩ st st' := by
  have hverdict : dispatcherVerdict (port.conf q) q 0 ⟨st.received.length, f⟩ = none := by
    rw [dispatcherVerdict, (hnone q).1, (hnone q).2]
  simp only [receivePacket, Option.map_eq_some_iff] at h
  obtain ⟨evs, hevs, rfl⟩ := h
  rw [processPackets, processPacket_of_no_verdict (Or.inr hverdict)] at hevs
  cases hr : protocolFilter (port.kni q) depth f.head.mem f.head.data_len.toNat with
  | none =>
    simp only [hr] at hevs
    cases hevs
  | some r =>
    simp only [hr, Option.map_some, processPackets, List.append_nil, Option.some.injEq] at hevs
    obtain ⟨hrec, hring, hdel, hother⟩ := applyEvents q evs
      { st with received := st.received ++ [(q, ⟨st.received.length, f⟩)] }
    refine ⟨r, ⟨depth, hr⟩, rfl, hrec, ?_, ?_, hother⟩
    · intro j
      rw [hring j, ← hevs, processClassified_nic_stored hclone henq, port.nb_queues_eq]
      rfl
    · rw [hdel, ← hevs, processClassified_veth]
      rfl

/-- What a read of the ring of `q` changes: `taken` leaves the ring and `given` gets to the stack.
Every packet that is sure to be recognised is given. -/
structure RingStep (port : RxPort) (q : ℕ) (taken given : List Mbuf) (st st' : RxState) :
    Prop where
  received : st'.received = st.received
  ring : st.dispatch_ring q = taken ++ st'.dispatch_ring q
  ring_other : ∀ j, j ≠ q → st'.dispatch_ring j = st.dispatch_ring j
  delivered : st'.delivered q = st.delivered q ++ given
  other : ∀ j, j ≠ q → st'.delivered j = st.delivered j
  sublist : given.Sublist taken
  recognised : ∀ id, (∀ c ∈ taken, c.id = id → ∀ r, Classified (port.kni q) c.frame r →
    r = .arp ∨ r = .ndp) → copiesOf given id = copiesOf taken id

theorem processDispatchRing_spec {port : RxPort} {q : ℕ} {st st' : RxState} {env : ℕ → RxEnv}
    (h : processDispatchRing port depth st q env = some st') :
    ∃ taken given, RingStep port q taken given st st' := by
  simp only [processDispatchRing, Option.map_eq_some_iff] at h
  obtain ⟨evs, hevs, rfl⟩ := h
  obtain ⟨hstored, hsub, hcopies⟩ := processPackets_ring hevs
  obtain ⟨hrec, hring, hdel, hother⟩ := applyEvents q evs { st with
    dispatch_ring := Function.update st.dispatch_ring q
      ((st.dispatch_ring q).drop MAX_PKT_BURST) }
  refine ⟨(st.dispatch_ring q).take MAX_PKT_BURST, evs.filterMap vethOf, hrec, ?_, ?_, hdel, hother,
    hsub, ?_⟩
  · rw [hring q, hstored q, List.append_nil]
    simp
  · intro j hj
    rw [hring j, hstored j, List.append_nil]
    simp [hj]
  · intro id hrecog
    apply hcopies id
    intro c hc hid r hr
    exact hrecog c hc hid r ⟨depth, hr⟩

/-! ## Runs -/

/-- The states reached from the start when packets are received and rings are read in any order,
with allocations and enqueues succeeding. -/
inductive RxRun (port : RxPort) : RxState → Prop where
  | init : RxRun port RxState.init
  | receive {st st' : RxState} (q : ℕ) (f : Frame) (env : RxEnv) (depth : ℕ) (h : RxRun port st)
      (hq : q < port.nb_queues) (hclone : ∀ d, env.clone d = true)
      (henq : ∀ i, env.enqueue i = true)
      (hstep : receivePacket port depth st q f env = some st') : RxRun port st'
  | ring {st st' : RxState} (q : ℕ) (env : ℕ → RxEnv) (depth : ℕ) (h : RxRun port st)
      (hq : q < port.nb_queues) (hstep : processDispatchRing port depth st q env = some st') :
      RxRun port st'

/-- The frame is IPv6 or ARP; in particular it may carry Neighbor Discovery. -/
def Resolves (f : Frame) : Prop := CarriesArp f ∨ ∃ off, EtherPayload f RTE_ETHER_TYPE_IPV6 off

/-- The invariant: where the copies of each received packet are. -/
structure RxInv (port : RxPort) (st : RxState) : Prop where
  ids : ∀ p ∈ st.received, p.2.id < st.received.length
  fresh : ∀ j c, c ∈ st.dispatch_ring j ∨ c ∈ st.delivered j → c.id < st.received.length
  queue : ∀ p ∈ st.received, p.1 < port.nb_queues
  same : ∀ p ∈ st.received, ∀ j c, c ∈ st.dispatch_ring j ∨ c ∈ st.delivered j → c.id = p.2.id →
    SameFrame c.frame p.2.frame
  fanned : ∀ p ∈ st.received, FannedOut p.2.frame →
    copiesOf (st.dispatch_ring p.1) p.2.id = [] ∧ ∀ j < port.nb_queues,
      (copiesOf (st.dispatch_ring j) p.2.id).length +
        (copiesOf (st.delivered j) p.2.id).length = 1
  single : ∀ p ∈ st.received, Resolves p.2.frame → ¬ FannedOut p.2.frame →
    (∀ j, copiesOf (st.dispatch_ring j) p.2.id = []) ∧
    (∀ j, j ≠ p.1 → copiesOf (st.delivered j) p.2.id = []) ∧
    ∃ r, Classified (port.kni p.1) p.2.frame r ∧ copiesOf (st.delivered p.1) p.2.id =
      if toKni (port.conf p.1) r = false then [p.2] else []

theorem mem_newCopies {port : RxPort} {env : RxEnv} {q : ℕ} {r : FilterReturn} {m : Mbuf}
    (h : c ∈ newCopies port env q r m j) : c.id = m.id ∧ SameFrame c.frame m.frame := by
  rw [newCopies] at h
  split at h
  · rw [Option.mem_toList] at h
    exact sameFrame_deepClone h
  · cases h

theorem mem_newDelivery {port : RxPort} {q : ℕ} {r : FilterReturn} {m : Mbuf}
    (h : c ∈ newDelivery port q r m) : c = m := by
  rw [newDelivery] at h
  split at h
  · exact List.mem_singleton.mp h
  · cases h

theorem length_newCopies {port : RxPort} {env : RxEnv} (hclone : ∀ d, env.clone d = true) {q : ℕ}
    {r : FilterReturn} (hr : r = .arp ∨ r = .ndp) (hj : j < port.nb_queues) (hq : j ≠ q) (m : Mbuf) :
    (newCopies port env q r m j).length = 1 := by
  rw [newCopies, if_pos ⟨hr, hj, hq⟩, pktmbufDeepClone, if_pos (hclone _)]
  rfl

theorem copiesOf_eq_self (h : ∀ c ∈ l, c.id = id) : copiesOf l id = l := by
  rw [copiesOf, List.filter_eq_self]
  intro c hc
  simpa using h c hc

section Receive

variable {port : RxPort} {env : RxEnv} {q : ℕ} {r : FilterReturn} {m : Mbuf} {st st' : RxState}

theorem ReceiveStep.mem_received (h : ReceiveStep port env q r m st st') (hp : p ∈ st'.received) :
    p ∈ st.received ∨ p = (q, m) := by
  rw [h.received, List.mem_append, List.mem_singleton] at hp
  exact hp

theorem ReceiveStep.length_received (h : ReceiveStep port env q r m st st') :
    st'.received.length = m.id + 1 := by
  rw [h.received, List.length_append, List.length_singleton, h.id_eq]

/-- What is in the rings and with the stack is old, or a copy of the new packet. -/
theorem ReceiveStep.mem (h : ReceiveStep port env q r m st st')
    (hc : c ∈ st'.dispatch_ring j ∨ c ∈ st'.delivered j) :
    (c ∈ st.dispatch_ring j ∨ c ∈ st.delivered j) ∨ c.id = m.id ∧ SameFrame c.frame m.frame := by
  cases hc with
  | inl hc =>
    rw [h.ring j, List.mem_append] at hc
    cases hc with
    | inl hold => exact Or.inl (Or.inl hold)
    | inr hnew => exact Or.inr (mem_newCopies hnew)
  | inr hc =>
    by_cases hj : j = q
    · subst hj
      rw [h.delivered, List.mem_append] at hc
      cases hc with
      | inl hold => exact Or.inl (Or.inr hold)
      | inr hnew =>
        rw [mem_newDelivery hnew]
        exact Or.inr ⟨rfl, sameFrame_refl _⟩
    · rw [h.other j hj] at hc
      exact Or.inl (Or.inr hc)

/-- The copies of earlier packets stay where they are. -/
theorem ReceiveStep.copies_old (h : ReceiveStep port env q r m st st') (hid : id < m.id) (j : ℕ) :
    copiesOf (st'.dispatch_ring j) id = copiesOf (st.dispatch_ring j) id ∧
      copiesOf (st'.delivered j) id = copiesOf (st.delivered j) id := by
  refine ⟨?_, ?_⟩
  · have hnil : copiesOf (newCopies port env q r m j) id = [] := by
      apply copiesOf_eq_nil
      intro c hc
      have := (mem_newCopies hc).1
      omega
    rw [h.ring j, copiesOf_append, hnil, List.append_nil]
  · by_cases hj : j = q
    · subst hj
      have hnil : copiesOf (newDelivery port j r m) id = [] := by
        apply copiesOf_eq_nil
        intro c hc
        rw [mem_newDelivery hc]
        omega
      rw [h.delivered, copiesOf_append, hnil, List.append_nil]
    · rw [h.other j hj]

/-- Before its reception a packet has no copies. -/
theorem ReceiveStep.fresh (h : ReceiveStep port env q r m st st') (hinv : RxInv port st) (j : ℕ) :
    copiesOf (st.dispatch_ring j) m.id = [] ∧ copiesOf (st.delivered j) m.id = [] := by
  have hid := h.id_eq
  refine ⟨copiesOf_eq_nil ?_, copiesOf_eq_nil ?_⟩
  · intro c hc
    have := hinv.fresh j c (Or.inl hc)
    omega
  · intro c hc
    have := hinv.fresh j c (Or.inr hc)
    omega

/-- Where the copies of the new packet are. -/
theorem ReceiveStep.copies_new (h : ReceiveStep port env q r m st st') (hinv : RxInv port st) :
    (∀ j, copiesOf (st'.dispatch_ring j) m.id = newCopies port env q r m j) ∧
    copiesOf (st'.delivered q) m.id = newDelivery port q r m ∧
    ∀ j, j ≠ q → copiesOf (st'.delivered j) m.id = [] := by
  refine ⟨?_, ?_, ?_⟩
  · intro j
    rw [h.ring j, copiesOf_append, (h.fresh hinv j).1, List.nil_append]
    exact copiesOf_eq_self (fun c hc => (mem_newCopies hc).1)
  · rw [h.delivered, copiesOf_append, (h.fresh hinv q).2, List.nil_append]
    exact copiesOf_eq_self (fun c hc => by rw [mem_newDelivery hc])
  · intro j hj
    rw [h.other j hj]
    exact (h.fresh hinv j).2

theorem ReceiveStep.same (h : ReceiveStep port env q r m st st') (hinv : RxInv port st)
    (hp : p ∈ st'.received) (hc : c ∈ st'.dispatch_ring j ∨ c ∈ st'.delivered j)
    (hid : c.id = p.2.id) :
    SameFrame c.frame p.2.frame := by
  have hm := h.id_eq
  cases h.mem_received hp with
  | inl hold =>
    have hlt := hinv.ids p hold
    cases h.mem hc with
    | inl hc => exact hinv.same p hold j c hc hid
    | inr hc => omega
  | inr hnew =>
    rw [hnew] at hid ⊢
    dsimp only at hid ⊢
    cases h.mem hc with
    | inl hc =>
      have := hinv.fresh j c hc
      omega
    | inr hc => exact hc.2

theorem ReceiveStep.fanned (h : ReceiveStep port env q r m st st') (hinv : RxInv port st)
    (hclone : ∀ d, env.clone d = true) (hclass : Classified (port.kni q) m.frame r)
    (hp : p ∈ st'.received) (hfan : FannedOut p.2.frame) :
    copiesOf (st'.dispatch_ring p.1) p.2.id = [] ∧ ∀ j < port.nb_queues,
      (copiesOf (st'.dispatch_ring j) p.2.id).length +
        (copiesOf (st'.delivered j) p.2.id).length = 1 := by
  cases h.mem_received hp with
  | inl hold =>
    have hlt : p.2.id < m.id := by
      rw [h.id_eq]
      exact hinv.ids p hold
    obtain ⟨hzero, hone⟩ := hinv.fanned p hold hfan
    refine ⟨?_, ?_⟩
    · rw [(h.copies_old hlt _).1]
      exact hzero
    · intro j hj
      rw [(h.copies_old hlt j).1, (h.copies_old hlt j).2]
      exact hone j hj
  | inr hnew =>
    rw [hnew] at hfan ⊢
    dsimp only at hfan ⊢
    have hr := hfan.of_classified hclass
    obtain ⟨hring, hdel, hnone⟩ := h.copies_new hinv
    refine ⟨?_, ?_⟩
    · rw [hring, newCopies, if_neg (by simp)]
    · intro j hj
      rw [hring]
      by_cases hjq : j = q
      · subst hjq
        rw [hdel, newCopies, if_neg (by simp), newDelivery, if_pos (Or.inl hr)]
        rfl
      · rw [length_newCopies hclone hr hj hjq, hnone j hjq]
        rfl

theorem ReceiveStep.single (h : ReceiveStep port env q r m st st') (hinv : RxInv port st)
    (hclass : Classified (port.kni q) m.frame r) (hp : p ∈ st'.received) (hres : Resolves p.2.frame)
    (hnot : ¬ FannedOut p.2.frame) :
    (∀ j, copiesOf (st'.dispatch_ring j) p.2.id = []) ∧
    (∀ j, j ≠ p.1 → copiesOf (st'.delivered j) p.2.id = []) ∧
    ∃ r, Classified (port.kni p.1) p.2.frame r ∧ copiesOf (st'.delivered p.1) p.2.id =
      if toKni (port.conf p.1) r = false then [p.2] else [] := by
  cases h.mem_received hp with
  | inl hold =>
    have hlt : p.2.id < m.id := by
      rw [h.id_eq]
      exact hinv.ids p hold
    obtain ⟨hzero, hnone, r', hr', hdel⟩ := hinv.single p hold hres hnot
    refine ⟨?_, ?_, r', hr', ?_⟩
    · intro j
      rw [(h.copies_old hlt j).1]
      exact hzero j
    · intro j hj
      rw [(h.copies_old hlt j).2]
      exact hnone j hj
    · rw [(h.copies_old hlt _).2]
      exact hdel
  | inr hnew =>
    rw [hnew] at hres hnot ⊢
    dsimp only at hres hnot ⊢
    have hr : ¬ (r = .arp ∨ r = .ndp) := by
      rw [classified_iff_fannedOut hres hclass]
      exact hnot
    obtain ⟨hring, hdel, hnone⟩ := h.copies_new hinv
    refine ⟨?_, hnone, r, hclass, ?_⟩
    · intro j
      rw [hring, newCopies, if_neg (fun h => hr h.1)]
    · rw [hdel, newDelivery]
      simp only [hr, false_or]

/-- The reception of a packet keeps the invariant. -/
theorem ReceiveStep.inv (h : ReceiveStep port env q r m st st') (hinv : RxInv port st)
    (hq : q < port.nb_queues) (hclone : ∀ d, env.clone d = true)
    (hclass : Classified (port.kni q) m.frame r) : RxInv port st' := by
  have hid := h.id_eq
  have hlen := h.length_received
  refine ⟨?_, ?_, ?_, fun p hp j c hc hid => h.same hinv hp hc hid,
    fun p hp hfan => h.fanned hinv hclone hclass hp hfan,
    fun p hp hres hnot => h.single hinv hclass hp hres hnot⟩
  · intro p hp
    cases h.mem_received hp with
    | inl hold =>
      have := hinv.ids p hold
      omega
    | inr hnew =>
      rw [hnew]
      dsimp only
      omega
  · intro j c hc
    cases h.mem hc with
    | inl hold =>
      have := hinv.fresh j c hold
      omega
    | inr hnew => omega
  · intro p hp
    cases h.mem_received hp with
    | inl hold => exact hinv.queue p hold
    | inr hnew =>
      rw [hnew]
      exact hq

end Receive

section Ring

variable {port : RxPort} {q : ℕ} {taken given : List Mbuf} {st st' : RxState}

theorem RingStep.mem (h : RingStep port q taken given st st')
    (hc : c ∈ st'.dispatch_ring j ∨ c ∈ st'.delivered j) :
    c ∈ st.dispatch_ring j ∨ c ∈ st.delivered j := by
  by_cases hj : j = q
  · subst hj
    cases hc with
    | inl hc =>
      rw [h.ring]
      exact Or.inl (List.mem_append_right _ hc)
    | inr hc =>
      rw [h.delivered, List.mem_append] at hc
      cases hc with
      | inl hold => exact Or.inr hold
      | inr hnew =>
        rw [h.ring]
        exact Or.inl (List.mem_append_left _ (h.sublist.subset hnew))
  · rw [h.ring_other j hj, h.other j hj] at hc
    exact hc

theorem RingStep.copies_ring (h : RingStep port q taken given st st') (id : ℕ) :
    copiesOf (st.dispatch_ring q) id = copiesOf taken id ++ copiesOf (st'.dispatch_ring q) id := by
  rw [h.ring, copiesOf_append]

/-- The copies of a recognised packet that are taken out get to the stack, because a copy
is recognised where it is taken out. -/
theorem RingStep.given_of_fannedOut (h : RingStep port q taken given st st') (hinv : RxInv port st)
    (hp : p ∈ st.received) (hfan : FannedOut p.2.frame) :
    copiesOf given p.2.id = copiesOf taken p.2.id := by
  apply h.recognised
  intro c hc hcid r hr
  have hold : c ∈ st.dispatch_ring q := by
    rw [h.ring]
    exact List.mem_append_left _ hc
  have hsame := hinv.same p hp q c (Or.inl hold) hcid
  exact (fannedOut_of_sameFrame hfan hsame).of_classified hr

theorem RingStep.fanned (h : RingStep port q taken given st st') (hinv : RxInv port st)
    (hp : p ∈ st.received) (hfan : FannedOut p.2.frame) :
    copiesOf (st'.dispatch_ring p.1) p.2.id = [] ∧ ∀ j < port.nb_queues,
      (copiesOf (st'.dispatch_ring j) p.2.id).length +
        (copiesOf (st'.delivered j) p.2.id).length = 1 := by
  obtain ⟨hzero, hone⟩ := hinv.fanned p hp hfan
  refine ⟨?_, ?_⟩
  · by_cases hj : p.1 = q
    · rw [hj, h.copies_ring] at hzero
      rw [hj]
      exact (List.append_eq_nil_iff.mp hzero).2
    · rw [h.ring_other _ hj]
      exact hzero
  · intro j hj
    have hsum := hone j hj
    by_cases hjq : j = q
    · subst hjq
      rw [h.copies_ring, List.length_append] at hsum
      rw [h.delivered, copiesOf_append, h.given_of_fannedOut hinv hp hfan, List.length_append]
      omega
    · rw [h.ring_other j hjq, h.other j hjq]
      exact hsum

theorem RingStep.single (h : RingStep port q taken given st st') (hinv : RxInv port st)
    (hp : p ∈ st.received) (hres : Resolves p.2.frame) (hnot : ¬ FannedOut p.2.frame) :
    (∀ j, copiesOf (st'.dispatch_ring j) p.2.id = []) ∧
    (∀ j, j ≠ p.1 → copiesOf (st'.delivered j) p.2.id = []) ∧
    ∃ r, Classified (port.kni p.1) p.2.frame r ∧ copiesOf (st'.delivered p.1) p.2.id =
      if toKni (port.conf p.1) r = false then [p.2] else [] := by
  obtain ⟨hzero, hnone, r, hr, hdel⟩ := hinv.single p hp hres hnot
  have hempty := hzero q
  rw [h.copies_ring, List.append_eq_nil_iff] at hempty
  have hgiven : copiesOf given p.2.id = [] := by
    have hle := h.sublist.filter fun c => decide (c.id = p.2.id)
    rw [← copiesOf, ← copiesOf, hempty.1] at hle
    exact List.sublist_nil.mp hle
  have hsame : ∀ j, copiesOf (st'.delivered j) p.2.id = copiesOf (st.delivered j) p.2.id := by
    intro j
    by_cases hj : j = q
    · subst hj
      rw [h.delivered, copiesOf_append, hgiven, List.append_nil]
    · rw [h.other j hj]
  refine ⟨?_, ?_, r, hr, ?_⟩
  · intro j
    by_cases hj : j = q
    · subst hj
      exact hempty.2
    · rw [h.ring_other j hj]
      exact hzero j
  · intro j hj
    rw [hsame]
    exact hnone j hj
  · rw [hsame]
    exact hdel

/-- Reading a ring keeps the invariant. -/
theorem RingStep.inv (h : RingStep port q taken given st st') (hinv : RxInv port st) :
    RxInv port st' := by
  refine ⟨?_, ?_, ?_, ?_, ?_, ?_⟩
  · rw [h.received]
    exact hinv.ids
  · intro j c hc
    rw [h.received]
    exact hinv.fresh j c (h.mem hc)
  · rw [h.received]
    exact hinv.queue
  · intro p hp j c hc
    rw [h.received] at hp
    exact hinv.same p hp j c (h.mem hc)
  · intro p hp hfan
    rw [h.received] at hp
    exact h.fanned hinv hp hfan
  · intro p hp hres hnot
    rw [h.received] at hp
    exact h.single hinv hp hres hnot

end Ring

theorem rxRun_inv {port : RxPort} (hnone : NoDispatcher port) {st : RxState}
    (h : RxRun port st) : RxInv port st := by
  induction h with
  | init =>
    refine ⟨?_, ?_, ?_, ?_, ?_, ?_⟩
    · intro p hp
      cases hp
    · intro j c hc
      cases hc with
      | inl hc => cases hc
      | inr hc => cases hc
    · intro p hp
      cases hp
    · intro p hp
      cases hp
    · intro p hp
      cases hp
    · intro p hp
      cases hp
  | receive q f env depth _ hq hclone henq hstep ih =>
    obtain ⟨r, hclass, hrecv⟩ := receivePacket_spec hnone hclone henq hstep
    exact hrecv.inv ih hq hclone hclass
  | ring q env depth _ _ hstep ih =>
    obtain ⟨taken, given, hring⟩ := processDispatchRing_spec hstep
    exact hring.inv ih

/-! ## Every queue -/

/-- The received packet gets to queue `j` exactly once: it has been given to the stack there, or an
equal copy waits in the ring of `j`, and the process of `j` will give it to the stack and to no
ring. -/
inductive ReachesQueue (port : RxPort) (st : RxState) (q : ℕ) (m : Mbuf) (j : ℕ) : Prop where
  | delivered (c : Mbuf) (hdel : copiesOf (st.delivered j) m.id = [c])
      (hring : copiesOf (st.dispatch_ring j) m.id = []) (hsame : SameFrame c.frame m.frame)
  | waiting (c : Mbuf) (hj : j ≠ q) (hdel : copiesOf (st.delivered j) m.id = [])
      (hring : copiesOf (st.dispatch_ring j) m.id = [c]) (hsame : SameFrame c.frame m.frame)
      (hnext : ∃ depth, ∀ env k, ∃ evs,
        processPacket (port.conf j) j true (protocolFilter (port.kni j) depth) env k c = some evs ∧
          evs.filterMap vethOf = [c] ∧ ∀ i, evs.filterMap (storedIn i) = [])

/-- KNI does not take frames of this class from the process of `q`. -/
def StaysWithStack (port : RxPort) (q : ℕ) (f : Frame) : Prop :=
  ∃ r, Classified (port.kni q) f r ∧ toKni (port.conf q) r = false

theorem resolves_of_carries (h : CarriesArp f ∨ CarriesNd f) : Resolves f := by
  cases h with
  | inl harp => exact Or.inl harp
  | inr hnd =>
    obtain ⟨off, -, hoff, -⟩ := hnd
    exact Or.inr ⟨off, hoff⟩

/-- A recognised frame, whether its copy for `j` has been taken out or not. -/
theorem RxInv.reachesQueue {port : RxPort} {st : RxState} (hinv : RxInv port st) {q : ℕ} {m : Mbuf}
    (hrec : (q, m) ∈ st.received) (hfan : FannedOut m.frame) (hj : j < port.nb_queues) :
    ReachesQueue port st q m j := by
  obtain ⟨hzero, hone⟩ := hinv.fanned (q, m) hrec hfan
  have hsum := hone j hj
  dsimp only at hzero hsum
  by_cases hdel : (copiesOf (st.delivered j) m.id).length = 1
  · obtain ⟨c, hc⟩ := List.length_eq_one_iff.mp hdel
    have hmem : c ∈ copiesOf (st.delivered j) m.id := by
      rw [hc]
      exact List.mem_singleton.mpr rfl
    rw [mem_copiesOf] at hmem
    refine .delivered c hc ?_ (hinv.same _ hrec j c (Or.inr hmem.1) hmem.2)
    exact List.length_eq_zero_iff.mp (by omega)
  · obtain ⟨c, hc⟩ := List.length_eq_one_iff.mp
      (show (copiesOf (st.dispatch_ring j) m.id).length = 1 by omega)
    have hmem : c ∈ copiesOf (st.dispatch_ring j) m.id := by
      rw [hc]
      exact List.mem_singleton.mpr rfl
    rw [mem_copiesOf] at hmem
    have hsame := hinv.same _ hrec j c (Or.inl hmem.1) hmem.2
    have hne : j ≠ q := by
      intro heq
      rw [heq, hzero] at hc
      cases hc
    refine .waiting c hne (List.length_eq_zero_iff.mp (by omega)) hc hsame ?_
    obtain ⟨r, ⟨depth, hd⟩, hr⟩ := (fannedOut_of_sameFrame hfan hsame).classified (port.kni j)
    refine ⟨depth, ?_⟩
    intro env k
    refine ⟨processClassified (port.conf j) j true env c r, ?_, ?_, ?_⟩
    · rw [processPacket_of_no_verdict (Or.inl rfl), hd]
      rfl
    · rw [processClassified_veth, if_pos (Or.inl hr)]
    · intro i
      exact processClassified_ring_stored _ _ _ _ _ _

theorem not_reachesQueue {port : RxPort} {st : RxState} {q : ℕ} {m : Mbuf}
    (hring : copiesOf (st.dispatch_ring j) m.id = []) (hdel : copiesOf (st.delivered j) m.id = []) :
    ¬ ReachesQueue port st q m j := by
  intro h
  cases h with
  | delivered c hc =>
    rw [hdel] at hc
    cases hc
  | waiting c _ _ hc =>
    rw [hring] at hc
    cases hc

/-- The reception of a frame that can be classified returns. -/
theorem receivePacket_returns {port : RxPort} (hnone : NoDispatcher port) {q : ℕ} {r : FilterReturn}
    (h : Classified (port.kni q) f r) (st : RxState) (env : RxEnv) :
    ∃ depth st', receivePacket port depth st q f env = some st' := by
  obtain ⟨depth, hd⟩ := h
  have hverdict : dispatcherVerdict (port.conf q) q 0 ⟨st.received.length, f⟩ = none := by
    rw [dispatcherVerdict, (hnone q).1, (hnone q).2]
  refine ⟨depth, ?_⟩
  simp only [receivePacket, processPackets, processPacket_of_no_verdict (Or.inr hverdict), hd,
    Option.map_some]
  exact ⟨_, rfl⟩

/-- In every run without a dispatcher, a received frame that carries ARP or Neighbor Discovery gets
to every queue exactly once if and only if unwrapping it leads to the message and it is not sent to
a group (or it is ARP), or there is one queue only and KNI leaves the frame to the stack; the
reception of such a frame returns.  Reading a ring puts nothing into a ring.
SOURCE: lib/ff_dpdk_if.c:1607-1657, lib/ff_dpdk_if.c:1810-1893, lib/ff_dpdk_kni.c:281-368 -/
theorem rxRun_reaches_iff (port : RxPort) (hnone : NoDispatcher port) (st : RxState)
    (h : RxRun port st) (q : ℕ) (m : Mbuf) (hrec : (q, m) ∈ st.received)
    (hcar : CarriesArp m.frame ∨ CarriesNd m.frame) :
    ((∀ j < port.nb_queues, ReachesQueue port st q m j) ↔
      FannedOut m.frame ∨ port.nb_queues = 1 ∧ StaysWithStack port q m.frame) ∧
    (∀ q' f env, FannedOut f ∨ port.nb_queues = 1 ∧ StaysWithStack port q' f →
      ∃ depth st', receivePacket port depth st q' f env = some st') ∧
    ∀ j depth env st', processDispatchRing port depth st j env = some st' →
      ∀ i, ∃ taken, st.dispatch_ring i = taken ++ st'.dispatch_ring i := by
  have hinv := rxRun_inv hnone h
  have hqlt := hinv.queue _ hrec
  dsimp only at hqlt
  refine ⟨?_, ?_, ?_⟩
  · by_cases hfan : FannedOut m.frame
    · exact iff_of_true (fun j hj => hinv.reachesQueue hrec hfan hj) (Or.inl hfan)
    · obtain ⟨hzero, hnone', r, hr, hdel⟩ :=
        hinv.single _ hrec (resolves_of_carries hcar) hfan
      dsimp only at hzero hnone' hr hdel
      simp only [hfan, false_or]
      constructor
      · intro hall
        -- a second queue would have no copy
        have hone : port.nb_queues = 1 := by
          by_contra hne
          obtain ⟨j, hj, hjq⟩ : ∃ j < port.nb_queues, j ≠ q := by
            by_cases hq0 : q = 0
            · exact ⟨1, by omega, by omega⟩
            · exact ⟨0, by omega, by omega⟩
          exact not_reachesQueue (hzero j) (hnone' j hjq) (hall j hj)
        refine ⟨hone, r, hr, ?_⟩
        cases hk : toKni (port.conf q) r with
        | false => rfl
        | true =>
          rw [hk, if_neg (by simp)] at hdel
          exact absurd (hall q hqlt) (not_reachesQueue (hzero q) hdel)
      · rintro ⟨hone, r', hr', hk⟩ j hj
        have hjq : j = q := by omega
        rw [hr'.unique hr] at hk
        rw [hjq]
        rw [if_pos hk] at hdel
        exact .delivered m hdel (hzero q) (sameFrame_refl _)
  · intro q' f env hf
    obtain ⟨r, hr⟩ : ∃ r, Classified (port.kni q') f r := by
      rcases hf with hfan | ⟨-, r, hr, -⟩
      · obtain ⟨r, hr, -⟩ := hfan.classified (port.kni q')
        exact ⟨r, hr⟩
      · exact ⟨r, hr⟩
    exact receivePacket_returns hnone hr st env
  · intro j depth env st' hstep i
    obtain ⟨taken, given, hring⟩ := processDispatchRing_spec hstep
    by_cases hi : i = j
    · subst hi
      exact ⟨taken, hring.ring⟩
    · exact ⟨[], (hring.ring_other i hi).symm⟩

/-- A port with two queues, without KNI and without a dispatcher. -/
def twoQueues : RxPort :=
  { nb_queues := 2
    conf := fun q => ⟨2, none, none, decide (q = 0), false, false, .default⟩
    kni := fun _ => ⟨false, fun _ => 0, fun _ => 0⟩
    nb_queues_eq := fun _ => rfl
    enable_kni_eq := fun _ => rfl }

/-- A frame of 86 bytes with the given start, and zeros behind it. -/
def frameOf (bytes : List UInt8) : Frame :=
  ⟨⟨fun i => bytes.getD i 0, 86⟩, [], 86, none, RTE_PKTMBUF_HEADROOM⟩

/-- An ARP request. -/
def arpRequest : Frame :=
  frameOf [0xff, 0xff, 0xff, 0xff, 0xff, 0xff, 2, 0, 0, 0, 0, 1, 0x08, 0x06]

theorem rxRun_reaches_iff_arpRequest : ∃ st, ∃ m : Mbuf, m.frame = arpRequest ∧
    ((∀ j < twoQueues.nb_queues, ReachesQueue twoQueues st 0 m j) ↔
      FannedOut m.frame ∨ twoQueues.nb_queues = 1 ∧ StaysWithStack twoQueues 0 m.frame) := by
  obtain ⟨st, hst⟩ : ∃ st, receivePacket twoQueues 0 RxState.init 0 arpRequest richEnv = some st :=
    ⟨_, rfl⟩
  have hrec : (0, ⟨0, arpRequest⟩) ∈ st.received := by
    cases hst
    exact List.mem_singleton.mpr rfl
  have harp : CarriesArp arpRequest := ⟨14, Or.inl ⟨by decide, by decide, rfl, by decide⟩⟩
  have hrun : RxRun twoQueues st := RxRun.receive 0 arpRequest richEnv 0 RxRun.init (by decide)
    (fun _ => rfl) (fun _ => rfl) hst
  exact ⟨st, ⟨0, arpRequest⟩, rfl, (rxRun_reaches_iff twoQueues (fun _ => ⟨rfl, rfl⟩) st hrun 0
    ⟨0, arpRequest⟩ hrec (Or.inl harp)).1⟩

/-- A Neighbor Solicitation to a solicited-node group address, as address resolution sends it. -/
def neighborSolicitation : Frame :=
  frameOf ([0x33, 0x33, 0xff, 0x00, 0x00, 0x01, 2, 0, 0, 0, 0, 1, 0x86, 0xdd] ++
    [0x60, 0, 0, 0, 0, 32, 58, 255] ++ List.replicate 32 0 ++ [135])

/-- The solicitation is received on queue 0, and queue 1 never gets it.
SOURCE: lib/ff_dpdk_if.c:1631-1640 -/
theorem neighborSolicitation_misses_queue : ∃ st, RxRun twoQueues st ∧
    (0, ⟨0, neighborSolicitation⟩) ∈ st.received ∧ CarriesNd neighborSolicitation ∧
    ¬ ∀ j < twoQueues.nb_queues, ReachesQueue twoQueues st 0 ⟨0, neighborSolicitation⟩ j := by
  obtain ⟨st, hst⟩ : ∃ st,
      receivePacket twoQueues 0 RxState.init 0 neighborSolicitation richEnv = some st := ⟨_, rfl⟩
  have hrun : RxRun twoQueues st := RxRun.receive 0 neighborSolicitation richEnv 0 RxRun.init
    (by decide) (fun _ => rfl) (fun _ => rfl) hst
  have hrec : (0, ⟨0, neighborSolicitation⟩) ∈ st.received := by
    cases hst
    exact List.mem_singleton.mpr rfl
  have hoff : EtherPayload neighborSolicitation RTE_ETHER_TYPE_IPV6 14 :=
    Or.inl ⟨by decide, by decide, rfl, by decide⟩
  have hnd : CarriesNd neighborSolicitation :=
    ⟨14, 54, hoff, by decide, .icmp6 (by decide) (by decide), by decide, by decide⟩
  have hnot : ¬ FannedOut neighborSolicitation := by
    rintro (⟨off, harp⟩ | ⟨hmulti, -⟩)
    · exact absurd (hoff.unique harp).1 (by decide)
    · exact absurd hmulti (by decide)
  refine ⟨st, hrun, hrec, hnd, ?_⟩
  intro hall
  obtain ⟨hzero, hnone, -⟩ := (rxRun_inv (fun _ => ⟨rfl, rfl⟩) hrun).single _ hrec
    (resolves_of_carries (Or.inr hnd)) hnot
  exact not_reachesQueue (hzero 1) (hnone 1 (by decide)) (hall 1 (by decide))

end FStack.Analysis
