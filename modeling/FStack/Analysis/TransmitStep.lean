import FStack.Model.Transmit
import FStack.Prelude.Slots

/-!
# What a step of the transmission does

`send_burst` moves the packets of a table to the NIC or frees them, and their BSD mbufs to the
ring or frees them.  Its effect is stated as counts: how often a packet has left the tables
(`rteOut`), and how often a BSD mbuf stands in a ring or has been freed (`bsdOut`).  `txStep_cases`
lists what one step can do.
-/

set_option autoImplicit false

namespace FStack.Analysis

open FStack.Model FStack.Prelude

/-- The identities of the first `n` packets of a table. -/
def tableIds (t : MbufTable) (n : ℕ) : List ℕ := slots (fun i => (t.m_table i).map RteMbuf.id) 0 n

/-- The BSD mbufs of the first `n` slots of a table. -/
def tableBsds (t : MbufTable) (n : ℕ) : List ℕ := slots t.bsd_m_table 0 n

/-- How often a packet is pending. -/
def pendingRte (st : TxState) (id : ℕ) : ℕ :=
  ∑ p, (tableIds (st.tx_mbufs p) (st.tx_mbufs p).len).count id

/-- How often a BSD mbuf stands in a pending slot. -/
def pendingBsd (st : TxState) (b : ℕ) : ℕ :=
  ∑ p, (tableBsds (st.tx_mbufs p) (st.tx_mbufs p).len).count b

/-- How often a packet has been handed to the NIC or freed. -/
def rteOut (st : TxState) (id : ℕ) : ℕ :=
  (st.nic.map RteMbuf.id).count id + (st.freed.map RteMbuf.id).count id

/-- How often a BSD mbuf stands in a ring or has been freed. -/
def bsdOut (st : TxState) (b : ℕ) : ℕ :=
  (∑ p, occurrences (st.nic_tx_ring p).m_table b) + st.bsdFreed.count b

theorem count_ffMbufFreeOpt (freed : List ℕ) (o : Option ℕ) (b : ℕ) :
    (ffMbufFreeOpt freed o).count b = freed.count b + holds b o := by
  cases o with
  | none => rfl
  | some m => rw [ffMbufFreeOpt, List.count_append, ← count_toList]; rfl

/-- Emptying slots of a ring moves their mbufs to the freed ones.
SOURCE: lib/ff_memory.c:176-182 -/
theorem ffTxringSkip_count (n : ℕ) (q : MbufTxring) (freed : List ℕ) (b : ℕ) :
    occurrences (ffTxringSkip n q freed).1.m_table b + (ffTxringSkip n q freed).2.count b =
      occurrences q.m_table b + freed.count b := by
  induction n generalizing q freed with
  | zero => rfl
  | succ n ih =>
    have hupd := occurrences_update q.m_table q.head none b
    rw [holds_none] at hupd
    rw [ffTxringSkip, ih, count_ffMbufFreeOpt]
    dsimp only
    omega

/-- An enqueued mbuf is added once.
SOURCE: lib/ff_memory.c:173-189 -/
theorem ffTxringEnqueue_count (q : MbufTxring) (p seg_num : ℕ) (freed : List ℕ) (b : ℕ) :
    occurrences (ffTxringEnqueue q p seg_num freed).1.m_table b +
        (ffTxringEnqueue q p seg_num freed).2.count b =
      occurrences q.m_table b + freed.count b + holds b (some p) := by
  have hskip := ffTxringSkip_count (seg_num - 1) q freed b
  rw [ffTxringEnqueue]
  generalize ffTxringSkip (seg_num - 1) q freed = r at hskip
  have hupd := occurrences_update r.1.m_table r.1.head (some p) b
  dsimp only
  rw [count_ffMbufFreeOpt]
  omega

/-! ## The burst -/

/-- The packets of the slots `l` of a port have left their table: each is handed to the NIC or
freed, its BSD mbuf stands in the ring or is freed, and the tables are as they were. -/
structure Bursted (port : PortId) (l : List ℕ) (st st' : TxState) : Prop where
  tables : st'.tx_mbufs = st.tx_mbufs
  placed : st'.placed = st.placed
  passed : st'.passed = st.passed
  rteOut_eq : ∀ id, rteOut st' id = rteOut st id +
    (l.filterMap fun i => ((st.tx_mbufs port).m_table i).map RteMbuf.id).count id
  bsdOut_le : ∀ b, bsdOut st' b ≤
    bsdOut st b + (l.filterMap (st.tx_mbufs port).bsd_m_table).count b
  recorded_le : ∀ b, st'.recorded.count b ≤
    st.recorded.count b + (l.filterMap (st.tx_mbufs port).bsd_m_table).count b
  consulted : ∀ c ∈ st'.consulted, c ∈ st.consulted ∨
    ∃ i ∈ l, (st.tx_mbufs port).m_table i = some c.1 ∧ c.2 = (st.tx_mbufs port).bsd_m_table i

theorem Bursted.refl (port : PortId) (st : TxState) : Bursted port [] st st where
  tables := rfl
  placed := rfl
  passed := rfl
  rteOut_eq := fun _ => rfl
  bsdOut_le := fun _ => by simp
  recorded_le := fun _ => by simp
  consulted := fun _ hc => Or.inl hc

theorem Bursted.append {port : PortId} {l l' : List ℕ} {st st' st'' : TxState}
    (h : Bursted port l st st') (h' : Bursted port l' st' st'') :
    Bursted port (l ++ l') st st'' where
  tables := h'.tables.trans h.tables
  placed := h'.placed.trans h.placed
  passed := h'.passed.trans h.passed
  rteOut_eq := by
    intro id
    have h2 := h'.rteOut_eq id
    rw [h.tables] at h2
    rw [h2, h.rteOut_eq id, List.filterMap_append, List.count_append, Nat.add_assoc]
  bsdOut_le := by
    intro b
    have h1 := h.bsdOut_le b
    have h2 := h'.bsdOut_le b
    rw [h.tables] at h2
    rw [List.filterMap_append, List.count_append]
    omega
  recorded_le := by
    intro b
    have h1 := h.recorded_le b
    have h2 := h'.recorded_le b
    rw [h.tables] at h2
    rw [List.filterMap_append, List.count_append]
    omega
  consulted := by
    intro c hc
    cases h'.consulted c hc with
    | inl hold =>
      cases h.consulted c hold with
      | inl hc => exact Or.inl hc
      | inr hc =>
        obtain ⟨i, hi, hm, hb⟩ := hc
        exact Or.inr ⟨i, List.mem_append_left _ hi, hm, hb⟩
    | inr hnew =>
      obtain ⟨i, hi, hm, hb⟩ := hnew
      rw [h.tables] at hm hb
      exact Or.inr ⟨i, List.mem_append_right _ hi, hm, hb⟩

theorem Bursted.foldl {port : PortId} {f : TxState → ℕ → TxState}
    (hf : ∀ st i, Bursted port [i] st (f st i)) (l : List ℕ) (st : TxState) :
    Bursted port l st (l.foldl f st) := by
  induction l generalizing st with
  | nil => exact Bursted.refl port st
  | cons i l ih => exact (hf st i).append (ih (f st i))

/-- A slot without a packet changes nothing. -/
theorem Bursted.of_none {port : PortId} {st : TxState} {i : ℕ}
    (hm : (st.tx_mbufs port).m_table i = none) : Bursted port [i] st st where
  tables := rfl
  placed := rfl
  passed := rfl
  rteOut_eq := by
    intro id
    simp [hm]
  bsdOut_le := fun _ => by omega
  recorded_le := fun _ => by omega
  consulted := fun _ hc => Or.inl hc

theorem count_singleton_filterMap {α : Type} [DecidableEq α] (f : ℕ → Option α) (i : ℕ) (a : α) :
    ([i].filterMap f).count a = holds a (f i) := by
  rw [← count_toList]
  cases h : f i with
  | none => simp [h]
  | some b => simp [h]

/-- An accepted packet; its BSD mbuf goes to the ring.
SOURCE: lib/ff_dpdk_if.c:2153-2161 -/
theorem sendBurstSent_bursted (port : PortId) (st : TxState) (i : ℕ) :
    Bursted port [i] st (sendBurstSent port st i) := by
  cases hm : (st.tx_mbufs port).m_table i with
  | none =>
    have heq : sendBurstSent port st i = st := by
      simp only [sendBurstSent, hm]
    rw [heq]
    exact Bursted.of_none hm
  | some m =>
    have hlog : ∀ c ∈ st.consulted ++ [(m, (st.tx_mbufs port).bsd_m_table i)],
        c ∈ st.consulted ∨ ∃ j ∈ [i], (st.tx_mbufs port).m_table j = some c.1 ∧
          c.2 = (st.tx_mbufs port).bsd_m_table j := by
      intro c hc
      cases List.mem_append.mp hc with
      | inl hold => exact Or.inl hold
      | inr hnew =>
        rw [List.mem_singleton] at hnew
        exact Or.inr ⟨i, List.mem_singleton.mpr rfl, by rw [hnew, hm], by rw [hnew]⟩
    have hnic : ∀ id, ((st.nic ++ [m]).map RteMbuf.id).count id =
        (st.nic.map RteMbuf.id).count id +
          ([i].filterMap fun i => ((st.tx_mbufs port).m_table i).map RteMbuf.id).count id := by
      intro id
      rw [List.map_append, List.count_append, count_singleton_filterMap, hm, Option.map_some,
        ← count_toList]
      rfl
    cases hb : (st.tx_mbufs port).bsd_m_table i with
    | none =>
      simp only [sendBurstSent, hm, hb]
      rw [hb] at hlog
      refine ⟨rfl, rfl, rfl, ?_, ?_, ?_, hlog⟩
      · intro id
        simp only [rteOut, hnic id]
        omega
      · intro b
        simp only [bsdOut]
        omega
      · intro b
        dsimp only
        omega
    | some c =>
      simp only [sendBurstSent, hm, hb]
      rw [hb] at hlog
      refine ⟨rfl, rfl, rfl, ?_, ?_, ?_, hlog⟩
      · intro id
        simp only [rteOut, hnic id]
        omega
      · intro b
        rw [count_singleton_filterMap, hb]
        have henq := ffTxringEnqueue_count (st.nic_tx_ring port) c m.nb_segs st.bsdFreed b
        generalize ffTxringEnqueue (st.nic_tx_ring port) c m.nb_segs st.bsdFreed = r at henq ⊢
        have hsum := sum_exchange (fun q : MbufTxring => occurrences q.m_table b) st.nic_tx_ring
          port r.1
        simp only [bsdOut]
        omega
      · intro b
        rw [count_singleton_filterMap, hb, List.count_append, ← count_toList]
        exact Nat.le_refl _

/-- A packet that was not accepted is freed, and so is its BSD mbuf.
SOURCE: lib/ff_dpdk_if.c:2163-2170 -/
theorem sendBurstUnsent_bursted (port : PortId) (st : TxState) (i : ℕ) :
    Bursted port [i] st (sendBurstUnsent port st i) := by
  cases hm : (st.tx_mbufs port).m_table i with
  | none =>
    have heq : sendBurstUnsent port st i = st := by
      simp only [sendBurstUnsent, hm]
    rw [heq]
    exact Bursted.of_none hm
  | some m =>
    simp only [sendBurstUnsent, hm]
    refine ⟨rfl, rfl, rfl, ?_, ?_, ?_, ?_⟩
    · intro id
      rw [count_singleton_filterMap, hm, Option.map_some, ← count_toList]
      simp only [rteOut, List.map_append, List.count_append, List.map_cons, List.map_nil,
        Option.toList_some]
      omega
    · intro b
      rw [count_singleton_filterMap]
      simp only [bsdOut, count_ffMbufFreeOpt]
      omega
    · intro b
      dsimp only
      omega
    · intro c hc
      cases List.mem_append.mp hc with
      | inl hold => exact Or.inl hold
      | inr hnew =>
        rw [List.mem_singleton] at hnew
        exact Or.inr ⟨i, List.mem_singleton.mpr rfl, by rw [hnew, hm], by rw [hnew]⟩

/-- The whole burst, whatever number of packets the NIC accepts.
SOURCE: lib/ff_dpdk_if.c:2133-2173 -/
theorem sendBurst_bursted (st : TxState) (n : ℕ) (port : PortId) (accepted : ℕ) :
    Bursted port (List.range' 0 n) st (sendBurst st n port accepted) := by
  have hsplit : List.range' 0 n =
      List.range' 0 (min accepted n) ++ List.range' (min accepted n) (n - min accepted n) := by
    have happ : List.range' 0 (min accepted n) ++
        List.range' (0 + 1 * min accepted n) (n - min accepted n) =
        List.range' 0 (min accepted n + (n - min accepted n)) := List.range'_append
    rw [Nat.one_mul, Nat.zero_add, show min accepted n + (n - min accepted n) = n by omega] at happ
    exact happ.symm
  rw [sendBurst, hsplit]
  exact (Bursted.foldl (sendBurstSent_bursted port) _ st).append
    (Bursted.foldl (sendBurstUnsent_bursted port) _ _)

/-! ## The new length -/

/-- What `storeLen` does, seen through counts.  Whether the table is sent or not, the
first `n` slots take the place of the pending ones.
SOURCE: lib/ff_dpdk_if.c:2187-2194, lib/ff_dpdk_if.c:2212-2217 -/
structure Stored (port : PortId) (n : ℕ) (st st' : TxState) : Prop where
  slots_eq : ∀ p, (st'.tx_mbufs p).m_table = (st.tx_mbufs p).m_table ∧
    (st'.tx_mbufs p).bsd_m_table = (st.tx_mbufs p).bsd_m_table
  len_port : (st'.tx_mbufs port).len = 0 ∨ (st'.tx_mbufs port).len = n ∧ n ≠ MAX_PKT_BURST
  len_other : ∀ p, p ≠ port → st'.tx_mbufs p = st.tx_mbufs p
  placed : st'.placed = st.placed
  passed : st'.passed = st.passed
  rte : ∀ id, pendingRte st' id + rteOut st' id +
      (tableIds (st.tx_mbufs port) (st.tx_mbufs port).len).count id =
    pendingRte st id + rteOut st id + (tableIds (st.tx_mbufs port) n).count id
  bsd : ∀ b, pendingBsd st' b + bsdOut st' b +
      (tableBsds (st.tx_mbufs port) (st.tx_mbufs port).len).count b ≤
    pendingBsd st b + bsdOut st b + (tableBsds (st.tx_mbufs port) n).count b
  recorded : ∀ b, pendingBsd st' b + st'.recorded.count b +
      (tableBsds (st.tx_mbufs port) (st.tx_mbufs port).len).count b ≤
    pendingBsd st b + st.recorded.count b + (tableBsds (st.tx_mbufs port) n).count b
  consulted : ∀ c ∈ st'.consulted, c ∈ st.consulted ∨ ∃ i < n,
    (st.tx_mbufs port).m_table i = some c.1 ∧ c.2 = (st.tx_mbufs port).bsd_m_table i

/-- The state with a new length for one port. -/
def setLen (st : TxState) (port : PortId) (len : ℕ) : TxState :=
  { st with tx_mbufs := Function.update st.tx_mbufs port { st.tx_mbufs port with len := len } }

theorem setLen_slots (st : TxState) (port p : PortId) (len : ℕ) :
    ((setLen st port len).tx_mbufs p).m_table = (st.tx_mbufs p).m_table ∧
      ((setLen st port len).tx_mbufs p).bsd_m_table = (st.tx_mbufs p).bsd_m_table := by
  by_cases hp : p = port
  · subst hp
    simp [setLen]
  · simp [setLen, hp]

theorem pendingRte_setLen (st : TxState) (port : PortId) (n id : ℕ) :
    pendingRte (setLen st port n) id +
        (tableIds (st.tx_mbufs port) (st.tx_mbufs port).len).count id =
      pendingRte st id + (tableIds (st.tx_mbufs port) n).count id :=
  sum_exchange (fun t : MbufTable => (tableIds t t.len).count id) st.tx_mbufs port
    { st.tx_mbufs port with len := n }

theorem pendingBsd_setLen (st : TxState) (port : PortId) (n b : ℕ) :
    pendingBsd (setLen st port n) b +
        (tableBsds (st.tx_mbufs port) (st.tx_mbufs port).len).count b =
      pendingBsd st b + (tableBsds (st.tx_mbufs port) n).count b :=
  sum_exchange (fun t : MbufTable => (tableBsds t t.len).count b) st.tx_mbufs port
    { st.tx_mbufs port with len := n }

/-- The tables are only given a new length. -/
theorem stored_setLen (st : TxState) (port : PortId) (n : ℕ) (hn : n ≠ MAX_PKT_BURST) :
    Stored port n st (setLen st port n) where
  slots_eq := fun p => setLen_slots st port p n
  len_port := Or.inr ⟨by simp [setLen], hn⟩
  len_other := fun p hp => by simp [setLen, hp]
  placed := rfl
  passed := rfl
  rte := by
    intro id
    have hsum := pendingRte_setLen st port n id
    have hout : rteOut (setLen st port n) id = rteOut st id := rfl
    omega
  bsd := by
    intro b
    have hsum := pendingBsd_setLen st port n b
    have hout : bsdOut (setLen st port n) b = bsdOut st b := rfl
    omega
  recorded := by
    intro b
    have hsum := pendingBsd_setLen st port n b
    have hrec : (setLen st port n).recorded = st.recorded := rfl
    rw [hrec]
    omega
  consulted := fun c hc => Or.inl hc

/-- The first `n` slots are sent, and the table is empty afterwards. -/
theorem stored_burst (st : TxState) (port : PortId) (n accepted : ℕ) :
    Stored port n st (setLen (sendBurst st n port accepted) port 0) := by
  have hb := sendBurst_bursted st n port accepted
  generalize sendBurst st n port accepted = st' at hb
  have htab := hb.tables
  -- the burst has not touched the tables, so what is pending before is what was pending
  have hrte : ∀ id, pendingRte st' id = pendingRte st id := fun id => by
    simp only [pendingRte, htab]
  have hbsd : ∀ b, pendingBsd st' b = pendingBsd st b := fun b => by
    simp only [pendingBsd, htab]
  refine ⟨?_, Or.inl (by simp [setLen]), ?_, hb.placed, hb.passed, ?_, ?_, ?_, ?_⟩
  · intro p
    rw [← htab]
    exact setLen_slots st' port p 0
  · intro p hp
    rw [← htab]
    simp [setLen, hp]
  · intro id
    have hsum := pendingRte_setLen st' port 0 id
    have hout : rteOut (setLen st' port 0) id =
        rteOut st id + (tableIds (st.tx_mbufs port) n).count id := hb.rteOut_eq id
    have hnil : (tableIds (st.tx_mbufs port) 0).count id = 0 := rfl
    rw [hrte, htab] at hsum
    omega
  · intro b
    have hsum := pendingBsd_setLen st' port 0 b
    have hout : bsdOut (setLen st' port 0) b ≤
        bsdOut st b + (tableBsds (st.tx_mbufs port) n).count b := hb.bsdOut_le b
    have hnil : (tableBsds (st.tx_mbufs port) 0).count b = 0 := rfl
    rw [hbsd, htab] at hsum
    omega
  · intro b
    have hsum := pendingBsd_setLen st' port 0 b
    have hout : (setLen st' port 0).recorded.count b ≤
        st.recorded.count b + (tableBsds (st.tx_mbufs port) n).count b := hb.recorded_le b
    have hnil : (tableBsds (st.tx_mbufs port) 0).count b = 0 := rfl
    rw [hbsd, htab] at hsum
    omega
  · intro c hc
    cases hb.consulted c hc with
    | inl hold => exact Or.inl hold
    | inr hnew =>
      obtain ⟨i, hi, hm, hs⟩ := hnew
      rw [List.mem_range'_1] at hi
      exact Or.inr ⟨i, by omega, hm, hs⟩

theorem storeLen_stored (st : TxState) (port : PortId) (n accepted : ℕ) :
    Stored port n st (storeLen st port n accepted) := by
  by_cases hfull : n = MAX_PKT_BURST
  · subst hfull
    have heq : storeLen st port MAX_PKT_BURST accepted =
        setLen (sendBurst st MAX_PKT_BURST port accepted) port 0 := by
      simp only [storeLen, if_true, setLen]
    rw [heq]
    exact stored_burst st port MAX_PKT_BURST accepted
  · have heq : storeLen st port n accepted = setLen st port n := by
      simp only [storeLen, hfull, if_false, setLen]
    rw [heq]
    exact stored_setLen st port n hfull

/-- The drain of a port sends its pending packets.
SOURCE: lib/ff_dpdk_if.c:2454-2465 -/
theorem drainPort_stored (accepted : PortId → ℕ) (st : TxState) (port : PortId)
    (hlen : (st.tx_mbufs port).len ≠ 0) :
    Stored port (st.tx_mbufs port).len st (drainPort accepted st port) := by
  have heq : drainPort accepted st port =
      setLen (sendBurst st (st.tx_mbufs port).len port (accepted port)) port 0 := by
    simp only [drainPort, hlen, if_false, setLen]
  rw [heq]
  exact stored_burst st port _ (accepted port)

/-! ## A new packet -/

/-- The next slot of both tables is filled. -/
def putSlot (st : TxState) (port : PortId) (m : RteMbuf) (s : Option ℕ) : TxState :=
  { st with
    tx_mbufs := Function.update st.tx_mbufs port
      { st.tx_mbufs port with
        m_table := Function.update (st.tx_mbufs port).m_table (st.tx_mbufs port).len (some m)
        bsd_m_table := Function.update (st.tx_mbufs port).bsd_m_table (st.tx_mbufs port).len s }
    placed := st.placed + 1 }

theorem putOnepkt_eq (st : TxState) (port : PortId) (m : StackMbuf) (nb_segs : ℕ) :
    putOnepkt st port m nb_segs = putSlot st port ⟨st.placed, nb_segs, some m.id⟩ (some m.id) := rfl

/-- `send_single_packet` leaves the slot of `bsd_m_table` as it finds it.
SOURCE: lib/ff_dpdk_if.c:2175-2195 -/
theorem sendSinglePacket_eq (st : TxState) (nb_segs : ℕ) (port : PortId) (accepted : ℕ) :
    sendSinglePacket st nb_segs port accepted =
      storeLen (putSlot st port ⟨st.placed, nb_segs, none⟩
        ((st.tx_mbufs port).bsd_m_table (st.tx_mbufs port).len)) port
        ((st.tx_mbufs port).len + 1) accepted := by
  rw [sendSinglePacket, putSlot, Function.update_eq_self]

/-- A packet `m` with the BSD mbuf `s` in its slot has been added to the queue of a port, which has
been sent if it was full. -/
structure Enqueued (port : PortId) (m : RteMbuf) (s : Option ℕ) (st st' : TxState) : Prop where
  placed : st'.placed = st.placed + 1
  passed : st'.passed = st.passed
  len_lt : (st.tx_mbufs port).len < MAX_PKT_BURST → (st'.tx_mbufs port).len < MAX_PKT_BURST
  len_other : ∀ p, p ≠ port → st'.tx_mbufs p = st.tx_mbufs p
  slot : ∀ i < (st'.tx_mbufs port).len,
    i < (st.tx_mbufs port).len ∧ (st'.tx_mbufs port).m_table i = (st.tx_mbufs port).m_table i ∧
      (st'.tx_mbufs port).bsd_m_table i = (st.tx_mbufs port).bsd_m_table i ∨
    (st'.tx_mbufs port).m_table i = some m ∧ (st'.tx_mbufs port).bsd_m_table i = s
  rte : ∀ id, pendingRte st' id + rteOut st' id =
    pendingRte st id + rteOut st id + holds id (some m.id)
  bsd : ∀ b, pendingBsd st' b + bsdOut st' b ≤ pendingBsd st b + bsdOut st b + holds b s
  recorded : ∀ b, pendingBsd st' b + st'.recorded.count b ≤
    pendingBsd st b + st.recorded.count b + holds b s
  consulted : ∀ c ∈ st'.consulted, c ∈ st.consulted ∨ c = (m, s) ∨
    ∃ i < (st.tx_mbufs port).len, (st.tx_mbufs port).m_table i = some c.1 ∧
      c.2 = (st.tx_mbufs port).bsd_m_table i

section PutSlot

variable (st : TxState) (port : PortId) (m : RteMbuf) (s : Option ℕ)

theorem putSlot_ids_succ : tableIds ((putSlot st port m s).tx_mbufs port)
    ((st.tx_mbufs port).len + 1) =
      tableIds (st.tx_mbufs port) (st.tx_mbufs port).len ++ [m.id] := by
  have hupd : (fun i => (((putSlot st port m s).tx_mbufs port).m_table i).map RteMbuf.id) =
      Function.update (fun i => ((st.tx_mbufs port).m_table i).map RteMbuf.id)
        (st.tx_mbufs port).len (some m.id) := by
    funext i
    by_cases hi : i = (st.tx_mbufs port).len
    · simp [putSlot, hi]
    · simp [putSlot, hi]
  rw [tableIds, hupd, slots_update_succ]
  rfl

theorem putSlot_ids : tableIds ((putSlot st port m s).tx_mbufs port) (st.tx_mbufs port).len =
    tableIds (st.tx_mbufs port) (st.tx_mbufs port).len := by
  apply slots_congr
  intro i _ hi
  simp [putSlot, show i ≠ (st.tx_mbufs port).len by omega]

theorem putSlot_bsds_succ : tableBsds ((putSlot st port m s).tx_mbufs port)
    ((st.tx_mbufs port).len + 1) =
      tableBsds (st.tx_mbufs port) (st.tx_mbufs port).len ++ s.toList := by
  have hupd : ((putSlot st port m s).tx_mbufs port).bsd_m_table =
      Function.update (st.tx_mbufs port).bsd_m_table (st.tx_mbufs port).len s := by
    simp [putSlot]
  rw [tableBsds, hupd, slots_update_succ]
  rfl

theorem putSlot_bsds : tableBsds ((putSlot st port m s).tx_mbufs port) (st.tx_mbufs port).len =
    tableBsds (st.tx_mbufs port) (st.tx_mbufs port).len := by
  apply slots_congr
  intro i _ hi
  simp [putSlot, show i ≠ (st.tx_mbufs port).len by omega]

theorem putSlot_len : ((putSlot st port m s).tx_mbufs port).len = (st.tx_mbufs port).len := by
  simp [putSlot]

theorem putSlot_pendingRte (id : ℕ) : pendingRte (putSlot st port m s) id = pendingRte st id := by
  have hsum := sum_exchange (fun t : MbufTable => (tableIds t t.len).count id) st.tx_mbufs port
    ((putSlot st port m s).tx_mbufs port)
  have htab : (putSlot st port m s).tx_mbufs =
      Function.update st.tx_mbufs port ((putSlot st port m s).tx_mbufs port) := by
    simp [putSlot]
  rw [← htab, putSlot_len, putSlot_ids] at hsum
  exact Nat.add_right_cancel hsum

theorem putSlot_pendingBsd (b : ℕ) : pendingBsd (putSlot st port m s) b = pendingBsd st b := by
  have hsum := sum_exchange (fun t : MbufTable => (tableBsds t t.len).count b) st.tx_mbufs port
    ((putSlot st port m s).tx_mbufs port)
  have htab : (putSlot st port m s).tx_mbufs =
      Function.update st.tx_mbufs port ((putSlot st port m s).tx_mbufs port) := by
    simp [putSlot]
  rw [← htab, putSlot_len, putSlot_bsds] at hsum
  exact Nat.add_right_cancel hsum

/-- Placing a packet and storing the new length. -/
theorem storeLen_putSlot_enqueued (accepted : ℕ) :
    Enqueued port m s st
      (storeLen (putSlot st port m s) port ((st.tx_mbufs port).len + 1) accepted) := by
  have hst := storeLen_stored (putSlot st port m s) port ((st.tx_mbufs port).len + 1) accepted
  generalize storeLen (putSlot st port m s) port ((st.tx_mbufs port).len + 1) accepted = st' at hst
  have hslot : ∀ i < (st.tx_mbufs port).len + 1,
      i < (st.tx_mbufs port).len ∧
        ((putSlot st port m s).tx_mbufs port).m_table i = (st.tx_mbufs port).m_table i ∧
        ((putSlot st port m s).tx_mbufs port).bsd_m_table i = (st.tx_mbufs port).bsd_m_table i ∨
      ((putSlot st port m s).tx_mbufs port).m_table i = some m ∧
        ((putSlot st port m s).tx_mbufs port).bsd_m_table i = s := by
    intro i hi
    by_cases hlast : i = (st.tx_mbufs port).len
    · exact Or.inr (by simp [putSlot, hlast])
    · exact Or.inl ⟨by omega, by simp [putSlot, hlast], by simp [putSlot, hlast]⟩
  refine ⟨hst.placed, hst.passed, ?_, ?_, ?_, ?_, ?_, ?_, ?_⟩
  · intro hlt
    have hmax : 0 < MAX_PKT_BURST := by decide
    cases hst.len_port with
    | inl hzero => omega
    | inr hlen => omega
  · intro p hp
    rw [hst.len_other p hp]
    simp [putSlot, hp]
  · intro i hi
    rw [(hst.slots_eq port).1, (hst.slots_eq port).2]
    apply hslot
    cases hst.len_port with
    | inl hzero => omega
    | inr hlen => omega
  · intro id
    have hrte := hst.rte id
    have hout : rteOut (putSlot st port m s) id = rteOut st id := rfl
    rw [putSlot_ids_succ, putSlot_len, putSlot_ids, putSlot_pendingRte, hout, List.count_append] at hrte
    rw [← count_toList, Option.toList_some]
    omega
  · intro b
    have hbsd := hst.bsd b
    have hout : bsdOut (putSlot st port m s) b = bsdOut st b := rfl
    rw [putSlot_bsds_succ, putSlot_len, putSlot_bsds, putSlot_pendingBsd, hout, List.count_append,
      count_toList] at hbsd
    omega
  · intro b
    have hrec := hst.recorded b
    have hout : (putSlot st port m s).recorded = st.recorded := rfl
    rw [putSlot_bsds_succ, putSlot_len, putSlot_bsds, putSlot_pendingBsd, hout, List.count_append,
      count_toList] at hrec
    omega
  · intro c hc
    cases hst.consulted c hc with
    | inl hold => exact Or.inl hold
    | inr hnew =>
      obtain ⟨i, hi, hm, hb⟩ := hnew
      cases hslot i hi with
      | inl hsame => exact Or.inr (Or.inr ⟨i, hsame.1, hsame.2.1 ▸ hm, hsame.2.2 ▸ hb⟩)
      | inr hlast =>
        rw [hlast.1] at hm
        rw [hlast.2] at hb
        cases hm
        exact Or.inr (Or.inl (by rw [← hb]))

end PutSlot

/-! ## The steps -/

/-- `ff_if_send_onepkt` gets a packet for the NIC: the data lies in the page array and every
allocation succeeds, or it does not and the mbuf carries a received packet that can be cloned. -/
def Builds (pa : PageArray) (m : Option StackMbuf) (alloc : ℕ → Bool) (clone : Bool) : Prop :=
  ∃ mb, m = some mb ∧
    if ffChkVma pa mb.m_data then ∀ k ≤ mb.m_next.length, alloc k = true
    else mb.extcl.isSome = true ∧ clone = true

/-- Without a panic, `ff_bsd_to_rte` fails exactly if an allocation fails.
SOURCE: lib/ff_memory.c:397-438 -/
theorem ffBsdToRte_isSome {pa : PageArray} {alloc : ℕ → Bool} (l : List UInt64) {k : ℕ}
    {o : Option ℕ} (h : ffBsdToRte pa alloc k l = some o) :
    o.isSome = true ↔ ∀ j < l.length, alloc (k + j) = true := by
  induction l generalizing k o with
  | nil =>
    cases h
    simp
  | cons data rest ih =>
    rw [ffBsdToRte] at h
    cases hk : alloc k with
    | false =>
      rw [if_pos hk] at h
      cases h
      simp only [Option.isSome_none, Bool.false_eq_true, false_iff, not_forall]
      exact ⟨0, by simp, by simp [hk]⟩
    | true =>
      rw [if_neg (by simp [hk])] at h
      split at h
      · cases h
      rw [Option.map_eq_some_iff] at h
      obtain ⟨o', ho', rfl⟩ := h
      rw [Option.isSome_map, ih ho']
      constructor
      · intro hall j hj
        cases j with
        | zero => exact hk
        | succ j =>
          rw [show k + (j + 1) = k + 1 + j by omega]
          exact hall j (by simpa using hj)
      · intro hall j hj
        rw [show k + 1 + j = k + (j + 1) by omega]
        exact hall (j + 1) (by simpa using hj)

/-- The BSD mbuf is freed, and no packet is placed. -/
def bsdDropped (st : TxState) (m : Option StackMbuf) : TxState :=
  { st with
    passed := ffMbufFreeOpt st.passed (m.map StackMbuf.id)
    bsdFreed := ffMbufFreeOpt st.bsdFreed (m.map StackMbuf.id) }

/-- What a step can do. -/
inductive StepCase (pa : PageArray) (tx_port_id : List PortId) (st : TxState) :
    TxAction → TxState → Prop where
  | noContext (m : Option StackMbuf) (alloc : ℕ → Bool) (clone : Bool) (accepted : ℕ) :
      StepCase pa tx_port_id st (.ifSend none m alloc clone accepted) (bsdDropped st m)
  | noPacket (port : PortId) (m : Option StackMbuf) (alloc : ℕ → Bool) (clone : Bool)
      (accepted : ℕ) (h : ¬ Builds pa m alloc clone) :
      StepCase pa tx_port_id st (.ifSend (some port) m alloc clone accepted)
        (setLen (bsdDropped st m) port 0)
  | stack (port : PortId) (m : StackMbuf) (alloc : ℕ → Bool) (clone : Bool) (accepted nb_segs : ℕ)
      (st' : TxState) (h : Builds pa (some m) alloc clone)
      (henq : Enqueued port ⟨st.placed, nb_segs, some m.id⟩ (some m.id)
        { st with passed := st.passed ++ [m.id] } st') :
      StepCase pa tx_port_id st (.ifSend (some port) (some m) alloc clone accepted) st'
  | rawFailed (total : ℕ) (port : PortId) (alloc : ℕ → Bool) (accepted : ℕ) :
      StepCase pa tx_port_id st (.rawSend total port alloc accepted) st
  | raw (total : ℕ) (port : PortId) (alloc : ℕ → Bool) (accepted nb_segs : ℕ) (st' : TxState)
      (h0 : alloc 0 = true) (h : (rawSegments alloc total 0 total).isSome = true)
      (henq : Enqueued port ⟨st.placed, nb_segs, none⟩
        ((st.tx_mbufs port).bsd_m_table (st.tx_mbufs port).len) st st') :
      StepCase pa tx_port_id st (.rawSend total port alloc accepted) st'
  | response (port : PortId) (accepted nb_segs : ℕ) (st' : TxState)
      (henq : Enqueued port ⟨st.placed, nb_segs, none⟩
        ((st.tx_mbufs port).bsd_m_table (st.tx_mbufs port).len) st st') :
      StepCase pa tx_port_id st (.response nb_segs port accepted) st'
  | drain (accepted : PortId → ℕ) :
      StepCase pa tx_port_id st (.drain accepted) (tx_port_id.foldl (drainPort accepted) st)

theorem sendSinglePacket_enqueued (st : TxState) (nb_segs : ℕ) (port : PortId) (accepted : ℕ) :
    Enqueued port ⟨st.placed, nb_segs, none⟩
      ((st.tx_mbufs port).bsd_m_table (st.tx_mbufs port).len) st
      (sendSinglePacket st nb_segs port accepted) := by
  rw [sendSinglePacket_eq]
  exact storeLen_putSlot_enqueued st port _ _ accepted

theorem storeLen_zero (st : TxState) (port : PortId) (accepted : ℕ) :
    storeLen st port 0 accepted = setLen st port 0 := by
  have hne : ¬ (0 = MAX_PKT_BURST) := by decide
  simp only [storeLen, hne, if_false, setLen]

/-- When `ff_if_send_onepkt` gets its packet.
SOURCE: lib/ff_memory.c:452-495 -/
theorem onepktHead_isSome {pa : PageArray} {m : StackMbuf} {alloc : ℕ → Bool} {clone : Bool}
    {head : Option ℕ} (h : onepktHead pa m alloc clone = some head) :
    head.isSome = true ↔ Builds pa (some m) alloc clone := by
  have hiff : Builds pa (some m) alloc clone ↔
      if ffChkVma pa m.m_data then ∀ k ≤ m.m_next.length, alloc k = true
      else m.extcl.isSome = true ∧ clone = true := by
    simp [Builds]
  rw [hiff]
  rw [onepktHead] at h
  split at h
  · rw [Option.map_eq_some_iff] at h
    obtain ⟨o, ho, rfl⟩ := h
    rw [Option.isSome_map, ffBsdToRte_isSome _ ho, if_pos ‹_›]
    simp only [List.length_cons, Nat.zero_add, Nat.lt_succ_iff]
  · rw [if_neg ‹_›]
    cases h
    rw [ffExtclToRte]
    cases m.extcl with
    | none => simp
    | some n => cases clone <;> simp

/-- The cases of a step.
SOURCE: lib/ff_dpdk_if.c:2175-2219, lib/ff_dpdk_if.c:2341-2383, lib/ff_memory.c:440-503 -/
theorem txStep_cases {pa : PageArray} {tx_port_id : List PortId} {st st' : TxState} {a : TxAction}
    (h : txStep pa tx_port_id st a = some st') : StepCase pa tx_port_id st a st' := by
  cases a with
  | ifSend ctx m alloc clone accepted =>
    cases ctx with
    | none =>
      cases h
      exact .noContext m alloc clone accepted
    | some port =>
      cases m with
      | none =>
        simp only [txStep, ffDpdkIfSend, ffIfSendOnepkt, Option.map_some, Option.some.injEq, storeLen_zero] at h
        rw [← h]
        exact .noPacket port none alloc clone accepted (by rintro ⟨mb, hmb, -⟩; cases hmb)
      | some m =>
        simp only [txStep, ffDpdkIfSend, ffIfSendOnepkt, Option.map_map, Option.map_eq_some_iff] at h
        obtain ⟨head, hhead, heq⟩ := h
        have hsome := onepktHead_isSome hhead
        cases head with
        | none =>
          simp only [Function.comp_apply, storeLen_zero] at heq
          rw [← heq]
          exact .noPacket port (some m) alloc clone accepted (by rw [← hsome]; simp)
        | some nb_segs =>
          simp only [Function.comp_apply, putOnepkt_eq] at heq
          rw [← heq]
          exact .stack port m alloc clone accepted nb_segs _ (hsome.mp rfl)
            (storeLen_putSlot_enqueued _ port _ _ accepted)
  | rawSend total port alloc accepted =>
    simp only [txStep, ffDpdkRawPacketSend, Option.some.injEq] at h
    cases h0 : alloc 0 with
    | false =>
      rw [if_pos h0] at h
      rw [← h]
      exact .rawFailed total port alloc accepted
    | true =>
      rw [if_neg (by simp [h0])] at h
      cases hseg : rawSegments alloc total 0 total with
      | none =>
        rw [hseg] at h
        rw [← h]
        exact .rawFailed total port alloc accepted
      | some nb_segs =>
        rw [hseg] at h
        rw [← h]
        exact .raw total port alloc accepted _ _ h0 (by rw [hseg]; rfl)
          (sendSinglePacket_enqueued st _ port accepted)
  | response nb_segs port accepted =>
    cases h
    exact .response port accepted nb_segs _ (sendSinglePacket_enqueued st nb_segs port accepted)
  | drain accepted =>
    cases h
    exact .drain accepted

/-- Port 0, for concrete runs. -/
def port0 : PortId := ⟨0, by decide⟩

end FStack.Analysis
