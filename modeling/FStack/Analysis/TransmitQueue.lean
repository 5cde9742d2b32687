import FStack.Analysis.TransmitStep

/-!
# No queued packet is lost

Every packet placed in an `m_table` is pending, handed to the NIC or freed, and only one of these.
`ff_if_send_onepkt` reports a failure as the length 0, which `ff_dpdk_if_send` stores: the packets
that were pending are then none of the three.  `queueRun_accounted` shows that this is the only way
to lose one.
-/

set_option autoImplicit false

namespace FStack.Analysis

open FStack.Model FStack.Prelude

variable {port : PortId} {st st' : TxState}
variable {m : RteMbuf} {s : Option ℕ} {pa : PageArray} {tx_port_id : List PortId}

/-- Each packet placed so far is exactly one of pending, handed to the NIC and freed. -/
def Accounted (st : TxState) : Prop :=
  ∀ id, pendingRte st id + rteOut st id = if id < st.placed then 1 else 0

/-- The condition on a step: a failure of `ff_if_send_onepkt` finds the queue of its port empty. -/
def KeepsQueue (pa : PageArray) (st : TxState) : TxAction → Prop
  | .ifSend (some port) m alloc clone _ =>
    Builds pa m alloc clone ∨ (st.tx_mbufs port).len = 0
  | _ => True

/-- The queues are never full between two steps, and their slots are filled. -/
def QueuesFilled (st : TxState) : Prop :=
  ∀ p, (st.tx_mbufs p).len < MAX_PKT_BURST ∧
    ∀ i < (st.tx_mbufs p).len, ((st.tx_mbufs p).m_table i).isSome = true

/-! ## One step -/

theorem Enqueued.queuesFilled (h : Enqueued port m s st st') (hfill : QueuesFilled st) :
    QueuesFilled st' := by
  intro p
  by_cases hp : p = port
  · subst hp
    refine ⟨h.len_lt (hfill p).1, ?_⟩
    intro i hi
    cases h.slot i hi with
    | inl hold =>
      rw [hold.2.1]
      exact (hfill p).2 i hold.1
    | inr hnew =>
      rw [hnew.1]
      rfl
  · rw [h.len_other p hp]
    exact hfill p

/-- INTERNAL: the new packet is the next one to be counted. -/
theorem Enqueued.accounted (h : Enqueued port m s st st') (hid : m.id = st.placed)
    (hacc : Accounted st) :
    Accounted st' := by
  intro id
  have hold := hacc id
  have hnew : holds id (some m.id) = if id = st.placed then 1 else 0 := by
    simp only [holds, hid, Option.some.injEq, eq_comm]
  rw [h.rte id, h.placed, hold, hnew]
  by_cases hlt : id < st.placed
  · rw [if_pos hlt, if_neg (by omega), if_pos (by omega)]
  · rw [if_neg hlt]
    by_cases heq : id = st.placed
    · rw [if_pos heq, if_pos (by omega)]
    · rw [if_neg heq, if_neg (by omega)]

theorem drainPort_keeps (accepted : PortId → ℕ) (st : TxState) (port : PortId) :
    (Accounted st → Accounted (drainPort accepted st port)) ∧
      (QueuesFilled st → QueuesFilled (drainPort accepted st port)) := by
  by_cases hlen : (st.tx_mbufs port).len = 0
  · have heq : drainPort accepted st port = st := by
      simp only [drainPort, hlen, if_true]
    rw [heq]
    exact ⟨id, id⟩
  have hst := drainPort_stored accepted st port hlen
  generalize drainPort accepted st port = st' at hst
  refine ⟨?_, ?_⟩
  · intro hacc i
    have hrte := hst.rte i
    rw [hst.placed, ← hacc i]
    omega
  · intro hfill p
    by_cases hp : p = port
    · subst hp
      have hmax := (hfill p).1
      cases hst.len_port with
      | inl hzero =>
        rw [hzero]
        exact ⟨by decide, by omega⟩
      | inr hsame =>
        rw [hsame.1, (hst.slots_eq p).1]
        exact hfill p
    · rw [hst.len_other p hp]
      exact hfill p

theorem drain_keeps (accepted : PortId → ℕ) (ports : List PortId) (st : TxState) :
    (Accounted st → Accounted (ports.foldl (drainPort accepted) st)) ∧
      (QueuesFilled st → QueuesFilled (ports.foldl (drainPort accepted) st)) := by
  induction ports generalizing st with
  | nil => exact ⟨id, id⟩
  | cons port ports ih =>
    have hhead := drainPort_keeps accepted st port
    have hrest := ih (drainPort accepted st port)
    exact ⟨fun h => hrest.1 (hhead.1 h), fun h => hrest.2 (hhead.2 h)⟩

/-- INTERNAL: storing the length 0 loses the pending packets, if there are any.
SOURCE: lib/ff_dpdk_if.c:2212-2217 -/
theorem accounted_setLen_zero (hacc : Accounted st) (hfill : QueuesFilled st) :
    Accounted (setLen st port 0) ↔ (st.tx_mbufs port).len = 0 := by
  have hst := stored_setLen st port 0 (by decide)
  have hempty : ∀ i, (tableIds (st.tx_mbufs port) 0).count i = 0 := fun _ => rfl
  constructor
  · intro hacc'
    by_contra hne
    -- the packet in slot 0 was counted once, and is no longer
    obtain ⟨m, hm⟩ := Option.isSome_iff_exists.mp ((hfill port).2 0 (by omega))
    have hmem : m.id ∈ tableIds (st.tx_mbufs port) (st.tx_mbufs port).len := by
      rw [tableIds, slots, List.mem_filterMap]
      exact ⟨0, by rw [List.mem_range'_1]; omega, by rw [hm]; rfl⟩
    have hpos := List.count_pos_iff.mpr hmem
    have hrte := hst.rte m.id
    have h1 := hacc m.id
    have h2 := hacc' m.id
    rw [hst.placed] at h2
    have h3 := hempty m.id
    omega
  · intro hzero id
    have hrte := hst.rte id
    have h3 := hempty id
    rw [hzero] at hrte
    rw [hst.placed, ← hacc id]
    omega

theorem setLen_zero_queuesFilled (hfill : QueuesFilled st) :
    QueuesFilled (setLen st port 0) := by
  have hst := stored_setLen st port 0 (by decide)
  intro p
  by_cases hp : p = port
  · subst hp
    have hlen : ((setLen st p 0).tx_mbufs p).len = 0 := by simp [setLen]
    rw [hlen]
    exact ⟨by decide, by omega⟩
  · rw [hst.len_other p hp]
    exact hfill p

/-- INTERNAL: a step keeps the account exactly if it keeps the queue. -/
theorem txStep_accounted_iff {a : TxAction} (hacc : Accounted st) (hfill : QueuesFilled st)
    (h : txStep pa tx_port_id st a = some st') :
    (Accounted st' ↔ KeepsQueue pa st a) ∧ QueuesFilled st' := by
  cases txStep_cases h with
  | noContext m alloc clone accepted => exact ⟨iff_of_true hacc trivial, hfill⟩
  | noPacket port m alloc clone accepted hnot =>
    have hacc' : Accounted (bsdDropped st m) := hacc
    have hfill' : QueuesFilled (bsdDropped st m) := hfill
    refine ⟨?_, setLen_zero_queuesFilled hfill'⟩
    rw [accounted_setLen_zero hacc' hfill', KeepsQueue]
    simp only [hnot, false_or]
    rfl
  | stack port m alloc clone accepted nb_segs st' hb henq =>
    have hacc' : Accounted { st with passed := st.passed ++ [m.id] } := hacc
    have hfill' : QueuesFilled { st with passed := st.passed ++ [m.id] } := hfill
    exact ⟨iff_of_true (henq.accounted rfl hacc') (Or.inl hb), henq.queuesFilled hfill'⟩
  | rawFailed total port alloc accepted => exact ⟨iff_of_true hacc trivial, hfill⟩
  | raw total port alloc accepted nb_segs st' h0 hseg henq =>
    exact ⟨iff_of_true (henq.accounted rfl hacc) trivial, henq.queuesFilled hfill⟩
  | response port accepted nb_segs st' henq =>
    exact ⟨iff_of_true (henq.accounted rfl hacc) trivial, henq.queuesFilled hfill⟩
  | drain accepted =>
    have hk := drain_keeps accepted tx_port_id st
    exact ⟨iff_of_true (hk.1 hacc) trivial, hk.2 hfill⟩

/-! ## Runs -/

/-- A state reached by steps that keep the queues. -/
inductive QueueRun (pa : PageArray) (tx_port_id : List PortId) : TxState → Prop where
  | init : QueueRun pa tx_port_id TxState.init
  | step {st st' : TxState} (a : TxAction) (h : QueueRun pa tx_port_id st)
      (hkeep : KeepsQueue pa st a) (hstep : txStep pa tx_port_id st a = some st') :
      QueueRun pa tx_port_id st'

theorem accounted_init : Accounted TxState.init := by
  intro id
  have hpend : pendingRte TxState.init id = 0 := by
    rw [pendingRte]
    apply Finset.sum_eq_zero
    intro p _
    rfl
  rw [hpend]
  rfl

theorem queueRun_invariant (h : QueueRun pa tx_port_id st) : Accounted st ∧ QueuesFilled st := by
  induction h with
  | init =>
    refine ⟨accounted_init, ?_⟩
    intro p
    exact ⟨show 0 < MAX_PKT_BURST by decide, fun i hi => absurd hi (Nat.not_lt_zero i)⟩
  | step a _ hkeep hstep ih =>
    have hnext := txStep_accounted_iff ih.1 ih.2 hstep
    exact ⟨hnext.1.mpr hkeep, hnext.2⟩

/-- In every run whose failing sends find their queue empty, each packet placed is exactly one of
pending, handed to the NIC and freed; and a further step keeps this exactly if it does so too.
SOURCE: lib/ff_dpdk_if.c:2133-2219, lib/ff_dpdk_if.c:2341-2383, lib/ff_dpdk_if.c:2451-2470,
lib/ff_memory.c:440-503 -/
theorem queueRun_accounted (pa : PageArray) (tx_port_id : List PortId) (st : TxState)
    (h : QueueRun pa tx_port_id st) :
    Accounted st ∧ ∀ a st', txStep pa tx_port_id st a = some st' →
      (Accounted st' ↔ KeepsQueue pa st a) := by
  obtain ⟨hacc, hfill⟩ := queueRun_invariant h
  refine ⟨hacc, ?_⟩
  intro a st' hstep
  exact (txStep_accounted_iff hacc hfill hstep).1

/-- A page array of two pages. -/
def smallPages : PageArray := ⟨0x10000, 0x12000, 2⟩

/-- A raw packet of 60 bytes on port 0, every allocation succeeding. -/
def rawSixty : TxAction := .rawSend 60 port0 (fun _ => true) 0

theorem queueRun_accounted_raw :
    ∃ st, st.placed = 1 ∧ Accounted st ∧ ∀ a st', txStep smallPages [] st a = some st' →
      (Accounted st' ↔ KeepsQueue smallPages st a) :=
  ⟨_, rfl, queueRun_accounted smallPages [] _ (QueueRun.step rawSixty QueueRun.init trivial rfl)⟩

/-- A packet of the stack whose data lies outside the page array. -/
def strayMbuf : StackMbuf := ⟨7, 0x8000, [], none⟩

/-- A raw packet is queued, and the stack then sends a packet that is dropped: the queued one is
neither pending nor with the NIC nor freed.
SOURCE: lib/ff_dpdk_if.c:2211-2217, lib/ff_memory.c:485-486 -/
theorem strayMbuf_loses_queue : ∃ st st',
    txStep smallPages [] TxState.init rawSixty = some st ∧
    txStep smallPages [] st (.ifSend (some port0) (some strayMbuf) (fun _ => true) true 0) =
      some st' ∧ ¬ Accounted st' := by
  obtain ⟨st, hst⟩ : ∃ st, txStep smallPages [] TxState.init rawSixty = some st := ⟨_, rfl⟩
  have hlen : (st.tx_mbufs port0).len = 1 := by
    cases hst
    rfl
  obtain ⟨st', hst'⟩ : ∃ st', txStep smallPages [] st
      (.ifSend (some port0) (some strayMbuf) (fun _ => true) true 0) = some st' := ⟨_, rfl⟩
  refine ⟨st, st', hst, hst', ?_⟩
  obtain ⟨hacc, hfill⟩ := queueRun_invariant (QueueRun.step rawSixty QueueRun.init trivial hst)
  rw [(txStep_accounted_iff hacc hfill hst').1, KeepsQueue]
  rintro (⟨mb, hmb, hbuilds⟩ | hzero)
  · cases hmb
    rw [if_neg (by decide)] at hbuilds
    cases hbuilds.1
  · omega

end FStack.Analysis
