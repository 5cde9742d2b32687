import FStack.Analysis.TransmitStep

/-!
# The BSD mbuf of a packet

`ff_if_send_onepkt` fills a slot of `m_table` and the same slot of `bsd_m_table`, while
`send_single_packet` fills `m_table` only and leaves whatever an earlier burst had in the other
table.  `send_burst` then releases or records that mbuf a second time.  As long as
`send_single_packet` finds an empty slot, each BSD mbuf is released and recorded at most once
(`pairedRun_releasedOnce`).
-/

set_option autoImplicit false

namespace FStack.Analysis

open FStack.Model FStack.Prelude

variable {st st' : TxState} {port : PortId}

/-- A BSD mbuf that the stack has passed once is freed at most once and recorded at most once, and
every slot of `bsd_m_table` that `send_burst` read was empty or held the mbuf of its packet. -/
def ReleasedOnce (st : TxState) : Prop :=
  (∀ b, st.passed.count b ≤ 1 → st.bsdFreed.count b ≤ 1 ∧ st.recorded.count b ≤ 1) ∧
    ∀ c ∈ st.consulted, c.2 = none ∨ c.2 = c.1.bsd

/-- The condition on a step: a packet that is not the stack's finds the next slot of `bsd_m_table`
empty. -/
def FindsEmptySlot (st : TxState) : TxAction → Prop
  | .rawSend total port alloc _ =>
    alloc 0 = true → (rawSegments alloc total 0 total).isSome = true →
      (st.tx_mbufs port).bsd_m_table (st.tx_mbufs port).len = none
  | .response _ port _ => (st.tx_mbufs port).bsd_m_table (st.tx_mbufs port).len = none
  | _ => True

/-- The invariant.  A BSD mbuf is in at most one pending slot, ring place or free for each time it
was passed. -/
structure BsdInv (st : TxState) : Prop where
  released : ∀ b, pendingBsd st b + bsdOut st b ≤ st.passed.count b
  recorded : ∀ b, pendingBsd st b + st.recorded.count b ≤ st.passed.count b
  slot : ∀ p, ∀ i < (st.tx_mbufs p).len, ∀ m, (st.tx_mbufs p).m_table i = some m →
    (st.tx_mbufs p).bsd_m_table i = none ∨ (st.tx_mbufs p).bsd_m_table i = m.bsd
  consulted : ∀ c ∈ st.consulted, c.2 = none ∨ c.2 = c.1.bsd

theorem BsdInv.releasedOnce (h : BsdInv st) : ReleasedOnce st := by
  refine ⟨?_, h.consulted⟩
  intro b hone
  have hrel := h.released b
  have hrec := h.recorded b
  simp only [bsdOut] at hrel
  exact ⟨by omega, by omega⟩

/-! ## One step -/

/-- INTERNAL: a packet whose slot is empty or holds its own mbuf, which has just been passed.
`st` is the state with the mbuf already passed. -/
theorem Enqueued.bsdInv {m : RteMbuf} {s : Option ℕ} (h : Enqueued port m s st st')
    (hpair : s = none ∨ s = m.bsd) (hinv : BsdInv st)
    (hrel : ∀ b, pendingBsd st b + bsdOut st b + holds b s ≤ st.passed.count b)
    (hrec : ∀ b, pendingBsd st b + st.recorded.count b + holds b s ≤ st.passed.count b) :
    BsdInv st' := by
  refine ⟨?_, ?_, ?_, ?_⟩
  · intro b
    have hb := h.bsd b
    have hle := hrel b
    rw [h.passed]
    omega
  · intro b
    have hb := h.recorded b
    have hle := hrec b
    rw [h.passed]
    omega
  · intro p i hi m' hm'
    by_cases hp : p = port
    · subst hp
      cases h.slot i hi with
      | inl hold =>
        rw [hold.2.2]
        rw [hold.2.1] at hm'
        exact hinv.slot p i hold.1 m' hm'
      | inr hnew =>
        rw [hnew.1] at hm'
        cases hm'
        rw [hnew.2]
        exact hpair
    · rw [h.len_other p hp] at hi hm' ⊢
      exact hinv.slot p i hi m' hm'
  · intro c hc
    rcases h.consulted c hc with hold | hnew | ⟨i, hi, hm', hs⟩
    · exact hinv.consulted c hold
    · rw [hnew]
      exact hpair
    · rw [hs]
      exact hinv.slot port i hi c.1 hm'

/-- INTERNAL: slots that were pending stay pending or are sent. -/
theorem Stored.bsdInv {n : ℕ} (h : Stored port n st st') (hn : n ≤ (st.tx_mbufs port).len)
    (hinv : BsdInv st) : BsdInv st' := by
  have hmono : ∀ b, (tableBsds (st.tx_mbufs port) n).count b ≤
      (tableBsds (st.tx_mbufs port) (st.tx_mbufs port).len).count b := by
    intro b
    have hsplit := slots_add (st.tx_mbufs port).bsd_m_table 0 n ((st.tx_mbufs port).len - n)
    rw [show n + ((st.tx_mbufs port).len - n) = (st.tx_mbufs port).len by omega] at hsplit
    rw [tableBsds, tableBsds, hsplit, List.count_append]
    omega
  refine ⟨?_, ?_, ?_, ?_⟩
  · intro b
    have hb := h.bsd b
    have hle := hinv.released b
    have hm := hmono b
    rw [h.passed]
    omega
  · intro b
    have hb := h.recorded b
    have hle := hinv.recorded b
    have hm := hmono b
    rw [h.passed]
    omega
  · intro p i hi m hm
    by_cases hp : p = port
    · subst hp
      rw [(h.slots_eq p).1] at hm
      rw [(h.slots_eq p).2]
      have hlt : i < (st.tx_mbufs p).len := by
        cases h.len_port with
        | inl hzero => omega
        | inr hsame => omega
      exact hinv.slot p i hlt m hm
    · rw [h.len_other p hp] at hi hm ⊢
      exact hinv.slot p i hi m hm
  · intro c hc
    rcases h.consulted c hc with hold | ⟨i, hi, hm, hs⟩
    · exact hinv.consulted c hold
    · rw [hs]
      exact hinv.slot port i (by omega) c.1 hm

theorem bsdDropped_bsdInv (m : Option StackMbuf) (hinv : BsdInv st) :
    BsdInv (bsdDropped st m) := by
  refine ⟨?_, ?_, hinv.slot, hinv.consulted⟩
  · intro b
    have hrel := hinv.released b
    have hpend : pendingBsd (bsdDropped st m) b = pendingBsd st b := rfl
    simp only [bsdOut] at hrel
    rw [hpend]
    simp only [bsdDropped, bsdOut, count_ffMbufFreeOpt]
    omega
  · intro b
    have hrec := hinv.recorded b
    have hpend : pendingBsd (bsdDropped st m) b = pendingBsd st b := rfl
    rw [hpend]
    simp only [bsdDropped, count_ffMbufFreeOpt]
    omega

theorem drain_bsdInv (accepted : PortId → ℕ) (ports : List PortId) (st : TxState)
    (hinv : BsdInv st) : BsdInv (ports.foldl (drainPort accepted) st) := by
  induction ports generalizing st with
  | nil => exact hinv
  | cons port ports ih =>
    apply ih
    by_cases hlen : (st.tx_mbufs port).len = 0
    · have heq : drainPort accepted st port = st := by
        simp only [drainPort, hlen, if_true]
      rw [heq]
      exact hinv
    · exact (drainPort_stored accepted st port hlen).bsdInv (by omega) hinv

/-- INTERNAL: a packet that is not the stack's, placed over an empty slot. -/
theorem Enqueued.bsdInv_of_empty {m : RteMbuf} {s : Option ℕ} (h : Enqueued port m s st st')
    (hs : s = none) (hinv : BsdInv st) : BsdInv st' := by
  subst hs
  apply h.bsdInv (Or.inl rfl) hinv
  · intro b
    rw [holds_none, Nat.add_zero]
    exact hinv.released b
  · intro b
    rw [holds_none, Nat.add_zero]
    exact hinv.recorded b

theorem txStep_bsdInv {pa : PageArray} {tx_port_id : List PortId} {a : TxAction} (hinv : BsdInv st)
    (hempty : FindsEmptySlot st a) (h : txStep pa tx_port_id st a = some st') : BsdInv st' := by
  cases txStep_cases h with
  | noContext m alloc clone accepted => exact bsdDropped_bsdInv m hinv
  | noPacket port m alloc clone accepted hnot =>
    exact (stored_setLen (bsdDropped st m) port 0 (by decide)).bsdInv (Nat.zero_le _)
      (bsdDropped_bsdInv m hinv)
  | stack port m alloc clone accepted nb_segs st' hb henq =>
    have hcount : ∀ b, ({ st with passed := st.passed ++ [m.id] } : TxState).passed.count b =
        st.passed.count b + holds b (some m.id) := by
      intro b
      rw [← count_toList, List.count_append]
      rfl
    have hpassed : BsdInv { st with passed := st.passed ++ [m.id] } := by
      refine ⟨?_, ?_, hinv.slot, hinv.consulted⟩
      · intro b
        have hrel := hinv.released b
        rw [hcount]
        exact Nat.le_trans hrel (Nat.le_add_right _ _)
      · intro b
        have hrec := hinv.recorded b
        rw [hcount]
        exact Nat.le_trans hrec (Nat.le_add_right _ _)
    apply henq.bsdInv (Or.inr rfl) hpassed
    · intro b
      rw [hcount]
      exact Nat.add_le_add_right (hinv.released b) _
    · intro b
      rw [hcount]
      exact Nat.add_le_add_right (hinv.recorded b) _
  | rawFailed total port alloc accepted => exact hinv
  | raw total port alloc accepted nb_segs st' h0 hseg henq =>
    exact henq.bsdInv_of_empty (hempty h0 hseg) hinv
  | response port accepted nb_segs st' henq => exact henq.bsdInv_of_empty hempty hinv
  | drain accepted => exact drain_bsdInv accepted tx_port_id st hinv

/-! ## Runs -/

/-- A state reached by steps in which `send_single_packet` finds its slot empty. -/
inductive PairedRun (pa : PageArray) (tx_port_id : List PortId) : TxState → Prop where
  | init : PairedRun pa tx_port_id TxState.init
  | step {st st' : TxState} (a : TxAction) (h : PairedRun pa tx_port_id st)
      (hempty : FindsEmptySlot st a) (hstep : txStep pa tx_port_id st a = some st') :
      PairedRun pa tx_port_id st'

theorem bsdInv_init : BsdInv TxState.init := by
  have hpend : ∀ b, pendingBsd TxState.init b = 0 := by
    intro b
    rw [pendingBsd]
    apply Finset.sum_eq_zero
    intro p _
    rfl
  have hout : ∀ b, bsdOut TxState.init b = 0 := by
    intro b
    rw [bsdOut]
    have hring : ∑ p, occurrences (TxState.init.nic_tx_ring p).m_table b = 0 := by
      apply Finset.sum_eq_zero
      intro p _
      rw [occurrences]
      apply Finset.sum_eq_zero
      intro i _
      rfl
    rw [hring]
    rfl
  refine ⟨?_, ?_, ?_, ?_⟩
  · intro b
    rw [hpend, hout]
    exact Nat.zero_le _
  · intro b
    rw [hpend]
    exact Nat.zero_le _
  · intro p i hi
    exact absurd hi (Nat.not_lt_zero i)
  · intro c hc
    cases hc

/-- In every run in which the packets of `send_single_packet` find an empty slot, no BSD mbuf is
released or recorded twice.
SOURCE: lib/ff_dpdk_if.c:2133-2195, lib/ff_dpdk_if.c:2341-2383, lib/ff_memory.c:166-189,
lib/ff_memory.c:440-508 -/
theorem pairedRun_releasedOnce (pa : PageArray) (tx_port_id : List PortId) (st : TxState)
    (h : PairedRun pa tx_port_id st) : ReleasedOnce st := by
  apply BsdInv.releasedOnce
  induction h with
  | init => exact bsdInv_init
  | step a _ hempty hstep ih => exact txStep_bsdInv ih hempty hstep

/-- A page array of one page, and a packet of the stack in it. -/
def onePage : PageArray := ⟨0x10000, 0x11000, 1⟩

def pageMbuf : StackMbuf := ⟨7, 0x10040, [], none⟩

/-- The stack sends `pageMbuf` on port 0. -/
def sendPageMbuf : TxAction :=
  .ifSend (some port0) (some pageMbuf) (fun _ => true) true 0

/-- A drain in which the NIC accepts nothing. -/
def drainNothing : TxAction := .drain fun _ => 0

/-- A packet of the dispatcher on port 0. -/
def respondOne : TxAction := .response 1 port0 0

theorem pairedRun_releasedOnce_pageMbuf :
    ∃ st, st.passed = [7] ∧ st.bsdFreed = [7] ∧ ReleasedOnce st :=
  ⟨_, rfl, rfl, pairedRun_releasedOnce onePage [port0] _
    (PairedRun.step drainNothing (PairedRun.step sendPageMbuf PairedRun.init trivial rfl)
      trivial rfl)⟩

/-- The steps of a run, one after another. -/
def txRun (pa : PageArray) (tx_port_id : List PortId) : List TxAction → TxState → Option TxState
  | [], st => some st
  | a :: acts, st => (txStep pa tx_port_id st a).bind (txRun pa tx_port_id acts)

/-- The stack's packet is dropped by a burst, and then a response on the same port: its burst finds
the stack's mbuf in the slot and frees it again.
SOURCE: lib/ff_dpdk_if.c:2166-2169, lib/ff_dpdk_if.c:2183-2185 -/
theorem staleSlot_freed_twice : ∃ st,
    txRun onePage [port0] [sendPageMbuf, drainNothing, respondOne, drainNothing]
      TxState.init = some st ∧ ¬ ReleasedOnce st := by
  refine ⟨_, rfl, ?_⟩
  rintro ⟨honce, -⟩
  exact absurd (honce 7 (by decide)).1 (by decide)

end FStack.Analysis
