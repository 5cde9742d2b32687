import FStack.Analysis.NeighborFanout
import Mathlib.Data.List.Forall2

/-!
# Packets that a dispatcher spreads over the queues

The processes of a port receive packets, ask their dispatchers, hand packets over through the dispatch rings and read
their rings, in any order.  A run is described by its state and by its log, which has the events of all calls of
`process_packets`.

The dispatchers answer what they like, from call to call, as long as no answer is below `FF_DISPATCH_RESPONSE`.
`dispatched_once` says that each received packet ends as its answer says, that what is handed over is processed once,
by the queue it was meant for and in that order, and that nothing is handed over twice.
-/

set_option autoImplicit false

namespace FStack.Analysis

open FStack.Model FStack.Prelude

/-! ## What happens to a packet -/

/-- The events that end the life of an input packet. -/
def endsLife : RxEvent → Bool
  | .veth _ | .kni _ | .send _ | .store _ _ | .free _ => true
  | .cloneStore _ _ | .cloneKni _ | .cloneFree _ | .access _ => false

/-- The packet is processed here: it goes to the stack, or to KNI with its tag put back. -/
def Processed (m : Mbuf) (e : RxEvent) : Prop :=
  e = .veth m ∨ e = .kni (ffAddVlanTag m)

/-- The packet with the data that the dispatcher has left. -/
def rewritten (m : Mbuf) (v : Verdict) : Mbuf :=
  { m with frame := { m.frame with head := ⟨v.mem, m.frame.head.data_len⟩ } }

/-- How a packet ends that queue `q` has received, when the dispatcher has answered `v`. -/
def Routed (nb_queues q : ℕ) (m : Mbuf) (v : Option Verdict) (e : RxEvent) : Prop :=
  match v with
  | none => Processed m e
  | some v =>
    if v.ret = FF_DISPATCH_RESPONSE then
      e = .send (ffAddVlanTag { m with frame := { m.frame with head := ⟨v.mem, v.len⟩, pkt_len := v.len.toNat } })
    else if v.ret = FF_DISPATCH_ERROR ∨ (nb_queues : ℤ) ≤ v.ret then e = .free (rewritten m v)
    else if v.ret = q then Processed (rewritten m v) e
    else e = .store v.ret (rewritten m v) ∨ e = .free (rewritten m v)

/-- The rings that a list of events puts packets in. -/
def RingsOf (nb_queues q : ℕ) (evs : List RxEvent) : Prop :=
  ∀ e ∈ evs, ∀ i m, e = .store i m ∨ e = .cloneStore i m → 0 ≤ i ∧ i < nb_queues ∧ i ≠ q

theorem RingsOf.cons {nb_queues q : ℕ} {e : RxEvent} {evs : List RxEvent} (h : RingsOf nb_queues q evs)
    (he : ∀ i m, e = .store i m ∨ e = .cloneStore i m → 0 ≤ i ∧ i < nb_queues ∧ i ≠ q) :
    RingsOf nb_queues q (e :: evs) :=
  List.forall_mem_cons.mpr ⟨he, h⟩

/-- A single event that is not about a ring. -/
theorem RingsOf.one {nb_queues q : ℕ} {e : RxEvent} (he : ∀ i m, ¬(e = .store i m ∨ e = .cloneStore i m)) :
    RingsOf nb_queues q [e] := by
  intro e' he' i m h
  rw [List.mem_singleton] at he'
  rw [he'] at h
  exact absurd h (he i m)

section Packet

variable {conf : RxConf} {q k : ℕ} {filter : Memory → ℕ → Option FilterReturn} {env : RxEnv} {m : Mbuf}

theorem filter_eq_nil_of_forall {evs : List RxEvent} (h : ∀ e ∈ evs, endsLife e = false) : evs.filter endsLife = [] := by
  rw [List.filter_eq_nil_iff]
  intro e he
  rw [h e he]
  exact Bool.false_ne_true

theorem mem_fanOut {e : RxEvent} (he : e ∈ fanOut conf q env m) :
    endsLife e = false ∧ ∀ i c, e = .store i c ∨ e = .cloneStore i c → 0 ≤ i ∧ i < conf.nb_queues ∧ i ≠ q := by
  rw [fanOut, List.mem_flatMap] at he
  obtain ⟨j, hj, he⟩ := he
  rw [List.mem_range] at hj
  split at he
  · cases he
  · rename_i hq
    split at he
    · cases he
    · split at he
      · simp only [List.mem_cons, List.not_mem_nil, or_false] at he
        rcases he with rfl | rfl
        · exact ⟨rfl, fun i c h => by simp at h⟩
        · refine ⟨rfl, fun i c h => ?_⟩
          simp only [reduceCtorEq, RxEvent.cloneStore.injEq, false_or] at h
          omega
      · simp only [List.mem_cons, List.not_mem_nil, or_false] at he
        rcases he with rfl | rfl
        · exact ⟨rfl, fun i c h => by simp at h⟩
        · exact ⟨rfl, fun i c h => by simp at h⟩

theorem mem_kniCopy {e : RxEvent} (he : e ∈ kniCopy conf env m) :
    endsLife e = false ∧ ∀ i c, e ≠ .store i c ∧ e ≠ .cloneStore i c := by
  rw [kniCopy] at he
  split at he
  · split at he
    · cases he
    · rw [List.mem_singleton] at he
      subst he
      exact ⟨rfl, fun i c => ⟨by simp, by simp⟩⟩
  · cases he

/-- A classified packet is processed; copies of it may go to the other rings, if it has not come out of one. -/
theorem processClassified_end (ring : Bool) (r : FilterReturn) :
    (∃ e, (processClassified conf q ring env m r).filter endsLife = [e] ∧ Processed m e) ∧
      RingsOf conf.nb_queues q (processClassified conf q ring env m r) := by
  rw [processClassified]
  split
  · have hfan : (if ring = true then [] else fanOut conf q env m).filter endsLife = [] := by
      apply filter_eq_nil_of_forall
      intro e he
      split at he
      · cases he
      · exact (mem_fanOut he).1
    have hkni : (kniCopy conf env m).filter endsLife = [] := filter_eq_nil_of_forall fun e he => (mem_kniCopy he).1
    constructor
    · refine ⟨.veth m, ?_, .inl rfl⟩
      rw [List.filter_append, List.filter_append, hfan, hkni]
      rfl
    · intro e he i c h
      rw [List.mem_append, List.mem_append, List.mem_singleton] at he
      rcases he with (he | he) | rfl
      · split at he
        · cases he
        · exact (mem_fanOut he).2 i c h
      · rcases h with rfl | rfl
        · exact absurd rfl ((mem_kniCopy he).2 i c).1
        · exact absurd rfl ((mem_kniCopy he).2 i c).2
      · simp at h
  · split
    · exact ⟨⟨_, rfl, .inr rfl⟩, .one (by simp)⟩
    · exact ⟨⟨_, rfl, .inl rfl⟩, .one (by simp)⟩

/-- **A received packet** ends as the answer about it says.
SOURCE: lib/ff_dpdk_if.c:1745-1876 -/
theorem processPacket_routed {evs : List RxEvent} (hrange : VerdictInRange conf q false k m)
    (h : processPacket conf q false filter env k m = some evs) :
    (∃ e, evs.filter endsLife = [e] ∧ Routed conf.nb_queues q m (dispatcherVerdict conf q k m) e) ∧
      RingsOf conf.nb_queues q evs := by
  rw [processPacket, if_neg Bool.false_ne_true] at h
  cases hv : dispatcherVerdict conf q k m with
  | none =>
    rw [hv] at h
    obtain ⟨r, -, rfl⟩ := Option.map_eq_some_iff.mp h
    exact processClassified_end false r
  | some v =>
    have hlow := hrange rfl v hv
    rw [hv] at h
    dsimp only at h
    rw [FF_DISPATCH_RESPONSE] at hlow
    unfold Routed
    dsimp only
    by_cases hresp : v.ret = FF_DISPATCH_RESPONSE
    · rw [if_pos hresp] at h
      simp only [if_pos hresp]
      cases h
      exact ⟨⟨_, rfl, rfl⟩, .one (by simp)⟩
    · rw [if_neg hresp] at h
      simp only [if_neg hresp]
      by_cases herr : v.ret = FF_DISPATCH_ERROR ∨ (conf.nb_queues : ℤ) ≤ v.ret
      · rw [if_pos herr] at h
        simp only [if_pos herr]
        cases h
        exact ⟨⟨_, rfl, rfl⟩, .one (by simp)⟩
      · rw [if_neg herr] at h
        simp only [if_neg herr]
        by_cases hsame : v.ret = q
        · -- it stays on its queue
          rw [if_neg (not_not.mpr hsame)] at h
          simp only [if_pos hsame]
          obtain ⟨r, -, rfl⟩ := Option.map_eq_some_iff.mp h
          exact processClassified_end false r
        · -- the answer is the index of another ring
          rw [if_pos hsame] at h
          simp only [if_neg hsame]
          have hindex : 0 ≤ v.ret ∧ v.ret < conf.nb_queues ∧ v.ret ≠ q := by
            rw [FF_DISPATCH_RESPONSE] at hresp
            rw [FF_DISPATCH_ERROR] at herr
            omega
          have hstore : ∀ i c, RxEvent.store v.ret (rewritten m v) = .store i c ∨
              RxEvent.store v.ret (rewritten m v) = .cloneStore i c → 0 ≤ i ∧ i < conf.nb_queues ∧ i ≠ q := by
            intro i c heq
            simp only [RxEvent.store.injEq, reduceCtorEq, or_false] at heq
            rw [← heq.1]
            exact hindex
          cases h
          split
          · exact ⟨⟨_, rfl, .inl rfl⟩, .cons (.cons (fun e he => by cases he) hstore) (by simp)⟩
          · exact ⟨⟨_, rfl, .inr rfl⟩, .cons (.one (by simp)) (by simp)⟩

/-- **Packets out of a ring** are processed one after the other, and go to no ring.
SOURCE: lib/ff_dpdk_if.c:1745-1876 -/
theorem processPackets_processed {env : ℕ → RxEnv} {bufs : List Mbuf} {evs : List RxEvent}
    (h : processPackets conf q true filter env k bufs = some evs) :
    List.Forall₂ Processed bufs (evs.filter endsLife) := by
  induction bufs generalizing k evs with
  | nil =>
    cases h
    exact .nil
  | cons m bufs ih =>
    rw [processPackets, processPacket_of_no_verdict (Or.inl rfl)] at h
    cases hr : filter m.frame.head.mem m.frame.head.data_len.toNat with
    | none =>
      rw [hr] at h
      cases h
    | some r =>
      rw [hr] at h
      simp only [Option.map_some, Option.map_eq_some_iff] at h
      obtain ⟨rest, hrest, rfl⟩ := h
      obtain ⟨⟨e, hfilter, he⟩, -⟩ := @processClassified_end conf q (env k) m true r
      rw [List.filter_append, hfilter]
      exact .cons he (ih hrest)

end Packet

/-! ## Runs -/

/-- An event in the process of a queue, in a call for packets from the NIC or from the queue's ring. -/
structure RxEntry where
  queue : ℕ
  from_ring : Bool
  event : RxEvent

/-- The events of a call. -/
def entries (q : ℕ) (from_ring : Bool) (evs : List RxEvent) : List RxEntry := evs.map fun e => ⟨q, from_ring, e⟩

/-- How the packets received from the NIC have ended, in the order in which they were received. -/
def nicEnds (log : List RxEntry) : List (ℕ × RxEvent) :=
  (log.filter fun e => !e.from_ring && endsLife e.event).map fun e => (e.queue, e.event)

/-- How the packets from the ring of queue `j` have ended. -/
def ringEnds (j : ℕ) (log : List RxEntry) : List RxEvent :=
  (log.filter fun e => e.from_ring && decide (e.queue = j) && endsLife e.event).map RxEntry.event

/-- What has been put into the ring of queue `j`. -/
def storedLog (j : ℕ) (log : List RxEntry) : List Mbuf := log.filterMap fun e => storedIn j e.event

/-- What has been given to the stack by queue `j`. -/
def givenLog (j : ℕ) (log : List RxEntry) : List Mbuf :=
  log.filterMap fun e => if e.queue = j then vethOf e.event else none

/-- The events of `receivePacket`. -/
def receiveEvents (port : RxPort) (depth : ℕ) (st : RxState) (q : ℕ) (frame : Frame) (env : RxEnv) :
    Option (List RxEvent) :=
  processPackets (port.conf q) q false (protocolFilter (port.kni q) depth) (fun _ => env) 0
    [⟨st.received.length, frame⟩]

/-- The events of `processDispatchRing`. -/
def ringEvents (port : RxPort) (depth : ℕ) (st : RxState) (q : ℕ) (env : ℕ → RxEnv) : Option (List RxEvent) :=
  processPackets (port.conf q) q true (protocolFilter (port.kni q) depth) env 0
    ((st.dispatch_ring q).take MAX_PKT_BURST)

/-- The states reached, with the answers about the packets received and the log, when the processes of `nb_queues`
queues receive packets and read their rings in any order.  The settings, with the dispatcher, may be others at each
step. -/
inductive Dispatched (nb_queues : ℕ) : RxState → List (Option Verdict) → List RxEntry → Prop where
  | init : Dispatched nb_queues RxState.init [] []
  | receive {st st' : RxState} {answers : List (Option Verdict)} {log : List RxEntry} {evs : List RxEvent}
      (port : RxPort) (depth q : ℕ) (frame : Frame) (env : RxEnv) (h : Dispatched nb_queues st answers log)
      (hport : port.nb_queues = nb_queues) (hq : q < nb_queues)
      (hrange : VerdictInRange (port.conf q) q false 0 ⟨st.received.length, frame⟩)
      (hevs : receiveEvents port depth st q frame env = some evs)
      (hstep : receivePacket port depth st q frame env = some st') :
      Dispatched nb_queues st'
        (answers ++ [dispatcherVerdict (port.conf q) q 0 ⟨st.received.length, frame⟩])
        (log ++ entries q false evs)
  | ring {st st' : RxState} {answers : List (Option Verdict)} {log : List RxEntry} {evs : List RxEvent}
      (port : RxPort) (depth q : ℕ) (env : ℕ → RxEnv) (h : Dispatched nb_queues st answers log)
      (hport : port.nb_queues = nb_queues) (hq : q < nb_queues)
      (hevs : ringEvents port depth st q env = some evs)
      (hstep : processDispatchRing port depth st q env = some st') :
      Dispatched nb_queues st' answers (log ++ entries q true evs)

/-- What a log accounts for. -/
structure PacketsAccounted (nb_queues : ℕ) (st : RxState) (answers : List (Option Verdict)) (log : List RxEntry) : Prop where
  asked : answers.length = st.received.length
  routed : List.Forall₂ (fun (p : (ℕ × Mbuf) × Option Verdict) (e : ℕ × RxEvent) =>
    e.1 = p.1.1 ∧ Routed nb_queues p.1.1 p.1.2 p.2 e.2) (st.received.zip answers) (nicEnds log)
  fifo : ∀ j, ∃ taken, storedLog j log = taken ++ st.dispatch_ring j ∧ List.Forall₂ Processed taken (ringEnds j log)
  delivered : ∀ j, st.delivered j = givenLog j log
  handed : ∀ e ∈ log, ∀ i m, e.event = .store i m ∨ e.event = .cloneStore i m →
    e.from_ring = false ∧ 0 ≤ i ∧ i < nb_queues ∧ i ≠ e.queue

section Entries

variable (q : ℕ) (log : List RxEntry) (evs : List RxEvent)

theorem nicEnds_received : nicEnds (log ++ entries q false evs) = nicEnds log ++ (evs.filter endsLife).map (q, ·) := by
  unfold nicEnds entries
  rw [List.filter_append, List.map_append, List.filter_map, List.map_map]
  rfl

theorem nicEnds_ring : nicEnds (log ++ entries q true evs) = nicEnds log := by
  unfold nicEnds entries
  rw [List.filter_append, List.map_append, List.filter_map]
  simp [Function.comp_def]

theorem ringEnds_received (j : ℕ) : ringEnds j (log ++ entries q false evs) = ringEnds j log := by
  unfold ringEnds entries
  rw [List.filter_append, List.map_append, List.filter_map]
  simp [Function.comp_def]

theorem ringEnds_ring (j : ℕ) :
    ringEnds j (log ++ entries q true evs) = ringEnds j log ++ if q = j then evs.filter endsLife else [] := by
  unfold ringEnds entries
  rw [List.filter_append, List.map_append, List.filter_map]
  split
  · rename_i hj
    simp [Function.comp_def, hj]
  · rename_i hj
    simp [Function.comp_def, hj]

theorem storedLog_append (ring : Bool) (j : ℕ) :
    storedLog j (log ++ entries q ring evs) = storedLog j log ++ evs.filterMap (storedIn j) := by
  unfold storedLog entries
  rw [List.filterMap_append, List.filterMap_map]
  rfl

theorem givenLog_append (ring : Bool) (j : ℕ) :
    givenLog j (log ++ entries q ring evs) = givenLog j log ++ if q = j then evs.filterMap vethOf else [] := by
  unfold givenLog entries
  rw [List.filterMap_append, List.filterMap_map]
  split
  · rename_i hj
    simp [hj]
  · rename_i hj
    simp [hj]

end Entries

section Turns

variable {nb_queues : ℕ} {st st' : RxState} {answers : List (Option Verdict)} {log : List RxEntry}
  {evs : List RxEvent} {port : RxPort} {depth q : ℕ}

theorem PacketsAccounted.delivered_append {ring : Bool} (h : PacketsAccounted nb_queues st answers log)
    (hdel : st'.delivered q = st.delivered q ++ evs.filterMap vethOf)
    (hother : ∀ j, j ≠ q → st'.delivered j = st.delivered j) (j : ℕ) :
    st'.delivered j = givenLog j (log ++ entries q ring evs) := by
  rw [givenLog_append]
  split
  · rename_i hj
    subst hj
    rw [hdel, ← h.delivered]
  · rename_i hj
    rw [hother j (Ne.symm hj), ← h.delivered, List.append_nil]

theorem PacketsAccounted.receive {frame : Frame} {env : RxEnv}
    (h : PacketsAccounted nb_queues st answers log) (hport : port.nb_queues = nb_queues)
    (hrange : VerdictInRange (port.conf q) q false 0 ⟨st.received.length, frame⟩)
    (hevs : receiveEvents port depth st q frame env = some evs)
    (hstep : receivePacket port depth st q frame env = some st') :
    PacketsAccounted nb_queues st'
      (answers ++ [dispatcherVerdict (port.conf q) q 0 ⟨st.received.length, frame⟩])
      (log ++ entries q false evs) := by
  have hone : processPacket (port.conf q) q false (protocolFilter (port.kni q) depth) env 0
      ⟨st.received.length, frame⟩ = some evs := by
    rw [receiveEvents, processPackets] at hevs
    cases hp : processPacket (port.conf q) q false (protocolFilter (port.kni q) depth) env 0
        ⟨st.received.length, frame⟩ with
    | none =>
      rw [hp] at hevs
      cases hevs
    | some evs' =>
      rw [hp] at hevs
      simpa [processPackets] using hevs
  obtain ⟨⟨e, hfilter, hrouted⟩, hrings⟩ := processPacket_routed hrange hone
  rw [port.nb_queues_eq, hport] at hrouted hrings
  rw [receivePacket] at hstep
  rw [receiveEvents] at hevs
  rw [hevs, Option.map_some, Option.some.injEq] at hstep
  obtain ⟨hrec, hring, hdel, hother⟩ := applyEvents q evs
    { st with received := st.received ++ [(q, ⟨st.received.length, frame⟩)] }
  rw [hstep] at hrec hring hdel hother
  refine ⟨?_, ?_, ?_, ?_, ?_⟩
  · rw [hrec, List.length_append, List.length_append, h.asked]
    rfl
  · rw [hrec, nicEnds_received, hfilter, List.zip_append h.asked.symm]
    exact List.rel_append h.routed (.cons ⟨rfl, hrouted⟩ .nil)
  · intro j
    obtain ⟨taken, hstored, htaken⟩ := h.fifo j
    refine ⟨taken, ?_, ?_⟩
    · rw [storedLog_append, hstored, hring j, List.append_assoc]
    · rw [ringEnds_received]
      exact htaken
  · exact h.delivered_append hdel hother
  · intro e he i m hstore
    rcases List.mem_append.mp he with he | he
    · exact h.handed e he i m hstore
    · obtain ⟨ev, hev, rfl⟩ := List.mem_map.mp he
      exact ⟨rfl, hrings ev hev i m hstore⟩

theorem PacketsAccounted.ring {env : ℕ → RxEnv} (h : PacketsAccounted nb_queues st answers log)
    (hevs : ringEvents port depth st q env = some evs)
    (hstep : processDispatchRing port depth st q env = some st') :
    PacketsAccounted nb_queues st' answers (log ++ entries q true evs) := by
  rw [ringEvents] at hevs
  have hprocessed := processPackets_processed hevs
  obtain ⟨hstored, -, -⟩ := processPackets_ring hevs
  simp only [processDispatchRing] at hstep
  rw [hevs, Option.map_some, Option.some.injEq] at hstep
  obtain ⟨hrec, hring, hdel, hother⟩ := applyEvents q evs
    { st with dispatch_ring := Function.update st.dispatch_ring q ((st.dispatch_ring q).drop MAX_PKT_BURST) }
  rw [hstep] at hrec hring hdel hother
  refine ⟨?_, ?_, ?_, ?_, ?_⟩
  · rw [hrec]
    exact h.asked
  · rw [hrec, nicEnds_ring]
    exact h.routed
  · intro j
    obtain ⟨taken, hlog, htaken⟩ := h.fifo j
    rw [storedLog_append, hstored, List.append_nil, hlog, hring j, hstored, List.append_nil, ringEnds_ring]
    dsimp only
    by_cases hj : q = j
    · subst hj
      rw [if_pos rfl, Function.update_self]
      refine ⟨taken ++ (st.dispatch_ring q).take MAX_PKT_BURST, ?_, List.rel_append htaken hprocessed⟩
      rw [List.append_assoc, List.take_append_drop]
    · rw [if_neg hj, List.append_nil, Function.update_of_ne (Ne.symm hj)]
      exact ⟨taken, rfl, htaken⟩
  · exact h.delivered_append hdel hother
  · intro e he i m hstore
    rcases List.mem_append.mp he with he | he
    · exact h.handed e he i m hstore
    · -- a call for a ring puts nothing into a ring
      obtain ⟨ev, hev, rfl⟩ := List.mem_map.mp he
      have hnone : storedIn i.toNat ev = none := List.filterMap_eq_nil_iff.mp (hstored i.toNat) ev hev
      have hsome : storedIn i.toNat ev = some m := by
        have hevent : ev = .store i m ∨ ev = .cloneStore i m := hstore
        rcases hevent with rfl | rfl
        · exact if_pos rfl
        · exact if_pos rfl
      rw [hnone] at hsome
      cases hsome

end Turns

/-- **Every received packet is accounted for, once.**  In every run, whatever the dispatchers answer from
`FF_DISPATCH_RESPONSE` on, each received packet has ended on its queue as the answer about it says: sent back, freed,
processed, or put into the ring of the queue that was named, or freed when that ring is full.  What is put into a ring
is processed by the queue of the ring, once and in order, or still there.  Nothing out of a ring goes to a ring, and no
queue puts anything into its own.
SOURCE: lib/ff_dpdk_if.c:1737-1893 -/
theorem dispatched_once {nb_queues : ℕ} {st : RxState} {answers : List (Option Verdict)} {log : List RxEntry}
    (h : Dispatched nb_queues st answers log) : PacketsAccounted nb_queues st answers log := by
  induction h with
  | init => exact ⟨rfl, .nil, fun j => ⟨[], rfl, .nil⟩, fun j => rfl, fun e he => by cases he⟩
  | receive port depth q frame env _ hport _ hrange hevs hstep ih => exact ih.receive hport hrange hevs hstep
  | ring port depth q env _ _ _ hevs hstep ih => exact ih.ring hevs hstep

/-- Two queues, and a dispatcher that wants every packet on queue 1. -/
def secondQueue : RxPort :=
  { twoQueues with
    conf := fun q => { twoQueues.conf q with packet_dispatcher := some fun _ mem len _ _ => ⟨1, mem, len⟩ } }

/-- A frame is received on queue 0, and given to the stack on queue 1. -/
theorem dispatched_once_moved : ∃ st answers log, PacketsAccounted 2 st answers log ∧ (st.delivered 1).map Mbuf.id = [0] := by
  obtain ⟨st, hst, hring⟩ : ∃ st, receivePacket secondQueue 0 RxState.init 0 zeroFrame richEnv = some st ∧
      ∃ st', processDispatchRing secondQueue 0 st 1 (fun _ => richEnv) = some st' ∧
        (st'.delivered 1).map Mbuf.id = [0] := ⟨_, rfl, _, rfl, rfl⟩
  obtain ⟨st', hst', hdel⟩ := hring
  obtain ⟨evs, hevs⟩ : ∃ evs, receiveEvents secondQueue 0 RxState.init 0 zeroFrame richEnv = some evs := ⟨_, rfl⟩
  obtain ⟨evs', hevs'⟩ : ∃ evs', ringEvents secondQueue 0 st 1 (fun _ => richEnv) = some evs' := by
    cases hst
    exact ⟨_, rfl⟩
  have hrange : VerdictInRange (secondQueue.conf 0) 0 false 0 ⟨0, zeroFrame⟩ := by
    intro _ v hv
    cases hv
    decide
  have hreceived := Dispatched.receive secondQueue 0 0 zeroFrame richEnv .init rfl (show 0 < 2 by decide) hrange hevs hst
  have hread := Dispatched.ring secondQueue 0 1 (fun _ => richEnv) hreceived rfl (by decide) hevs' hst'
  exact ⟨st', _, _, dispatched_once hread, hdel⟩

end FStack.Analysis
