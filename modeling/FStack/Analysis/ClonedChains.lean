import FStack.Model.DeepClone
import FStack.Model.Receive
import Mathlib.Data.List.Nodup

/-!
# Clones of chains

After each round of the loop the segments of the clone are linked in the order in which they were
allocated, and equal those of the chain in the same order; nothing else in the heap has changed
(`ClonedSo`).  Three things can spoil the result: the number of segments is counted in 8 bits, a segment
may be longer than a data room, and the flags that are copied make `rte_pktmbuf_free` detach what was
never attached.  `deep_clone_right_iff` says that nothing else can.  The clone in the receiving code is the same
(`deepClone_received`).
-/

set_option autoImplicit false

namespace FStack.Analysis

open FStack.Model FStack.Prelude

variable {c room : ℕ} {alloc : ℕ → Option ℕ} {st : CloneState} {heap : ℕ → ChainMbuf} {ms cs : List ℕ}
variable {st' : CloneState} {x last md : ℕ} {xs rest : List ℕ}

/-- The fields of a segment of the clone are those of the chain's. -/
structure SegCopy (c m : ChainMbuf) : Prop where
  data_len : c.data_len = m.data_len
  data : readAt c.data 0 c.data_len = readAt m.data 0 m.data_len
  port : c.port = m.port
  vlan_tci : c.vlan_tci = m.vlan_tci
  vlan_tci_outer : c.vlan_tci_outer = m.vlan_tci_outer
  tx_offload : c.tx_offload = m.tx_offload
  hash : c.hash = m.hash
  ol_flags : c.ol_flags = m.ol_flags
  packet_type : c.packet_type = m.packet_type

theorem SegCopy.refl (a : ChainMbuf) : SegCopy a a :=
  ⟨rfl, rfl, rfl, rfl, rfl, rfl, rfl, rfl, rfl⟩

theorem SegCopy.trans {a b c : ChainMbuf} (hab : SegCopy a b) (hbc : SegCopy b c) : SegCopy a c :=
  ⟨hab.data_len.trans hbc.data_len, hab.data.trans hbc.data, hab.port.trans hbc.port,
    hab.vlan_tci.trans hbc.vlan_tci, hab.vlan_tci_outer.trans hbc.vlan_tci_outer,
    hab.tx_offload.trans hbc.tx_offload, hab.hash.trans hbc.hash, hab.ol_flags.trans hbc.ol_flags,
    hab.packet_type.trans hbc.packet_type⟩

/-- The mbufs are linked in this order. -/
def LinkedInOrder (heap : ℕ → ChainMbuf) (ms : List ℕ) : Prop :=
  ∀ i m m', ms[i]? = some m → ms[i + 1]? = some m' → (heap m).next = some m'

/-- The chain `ms`: linked, with an end, and its number of segments in its head. -/
structure IsMbufChain (heap : ℕ → ChainMbuf) (ms : List ℕ) : Prop where
  links : LinkedInOrder heap ms
  last : ∀ m ∈ ms.getLast?, (heap m).next = none
  nb_segs : ∀ m ∈ ms.head?, (heap m).nb_segs = ms.length

/-- The pool hands out mbufs that are not in use: not in the chain, and each once. -/
structure FreshMbufs (alloc : ℕ → Option ℕ) (ms : List ℕ) : Prop where
  apart : ∀ k c, alloc k = some c → c ∉ ms
  once : ∀ j k c, alloc j = some c → alloc k = some c → j = k

/-! ## What a round keeps -/

/-- The segments `cs` have been allocated, filled from the front of the chain `ms`, and linked. -/
structure ClonedSo (alloc : ℕ → Option ℕ) (room : ℕ) (heap : ℕ → ChainMbuf) (ms : List ℕ)
    (st : CloneState) (cs : List ℕ) : Prop where
  allocated : st.allocated = cs
  answers : ∀ i (h : i < cs.length), alloc i = some cs[i]
  copies : ∀ i c m : ℕ, cs[i]? = some c → ms[i]? = some m → SegCopy (st.heap c) (heap m)
  links : LinkedInOrder st.heap cs
  frame : ∀ x, x ∉ cs → st.heap x = heap x
  overrun : st.overrun = (ms.take cs.length).any fun m => decide (room < (heap m).data_len)

theorem allocMbuf_some (h : allocMbuf alloc st = (st', some c)) :
    alloc st.calls = some c ∧
      st' = { st with
        heap := Function.update st.heap c (st.heap c).reset
        calls := st.calls + 1
        allocated := st.allocated ++ [c] } := by
  rw [allocMbuf] at h
  cases ha : alloc st.calls with
  | none =>
    rw [ha] at h
    cases h
  | some c' =>
    rw [ha] at h
    obtain ⟨rfl, hc⟩ := Prod.mk.inj h
    obtain rfl := Option.some.inj hc
    exact ⟨rfl, rfl⟩

/-- An mbuf that the pool hands out is not one of those it has handed out before. -/
theorem ClonedSo.fresh (h : ClonedSo alloc room heap ms st cs) (hfresh : FreshMbufs alloc ms)
    (hc : alloc cs.length = some c) : c ∉ cs := by
  intro hmem
  obtain ⟨i, hi, rfl⟩ := List.getElem_of_mem hmem
  have hsame := hfresh.once i cs.length cs[i] (h.answers i hi) hc
  omega

/-- The segments that have been handed out are different from one another. -/
theorem ClonedSo.nodup (h : ClonedSo alloc room heap ms st cs) (hfresh : FreshMbufs alloc ms) :
    cs.Nodup := by
  rw [List.nodup_iff_pairwise_ne, List.pairwise_iff_getElem]
  intro i j hi hj hij heq
  have hanswer : alloc j = some cs[i] := by
    rw [heq]
    exact h.answers j hj
  have hsame := hfresh.once i j cs[i] (h.answers i hi) hanswer
  omega

/-- Where `*prev` is, when `mi` is about to be filled. -/
def prevOf (cs : List ℕ) (mi : ℕ) : ℕ := cs.getLast?.getD mi

theorem prevOf_mem (cs : List ℕ) (mi : ℕ) : prevOf cs mi ∈ cs ++ [mi] := by
  rw [prevOf]
  cases hlast : cs.getLast? with
  | none => simp
  | some c =>
    rw [Option.getD_some]
    exact List.mem_append_left _ (List.mem_of_getLast? hlast)

/-- What the heap holds after a round: the new segment is a copy, the segment before it leads to
it, and everything else is as it was. -/
theorem round_heap (room : ℕ) (st : CloneState) (mi md p : ℕ) :
    let st' := setNext (deepAttach room st mi md) p (some mi)
    SegCopy (st'.heap mi) (st.heap md) ∧
      (∀ x, x ≠ mi → x ≠ p → st'.heap x = st.heap x) ∧
      (∀ x, x ≠ mi → SegCopy (st'.heap x) (st.heap x)) ∧ (st'.heap p).next = some mi := by
  have hself : ∀ x : ℕ, SegCopy (st.heap x) (st.heap x) := fun x => SegCopy.refl (st.heap x)
  have hbytes : readAt (writeAt (st.heap mi).data 0 (readAt (st.heap md).data 0 (st.heap md).data_len)) 0
      (st.heap md).data_len = readAt (st.heap md).data 0 (st.heap md).data_len := by
    have hread := readAt_writeAt_self (st.heap mi).data 0
      (readAt (st.heap md).data 0 (st.heap md).data_len)
    rwa [length_readAt] at hread
  refine ⟨?_, ?_, ?_, ?_⟩
  · by_cases hp : mi = p
    · subst hp
      constructor <;> simp [setNext, deepAttach, hbytes]
    · constructor <;> simp [setNext, deepAttach, Function.update_of_ne hp, hbytes]
  · intro x hx hp
    simp [setNext, deepAttach, Function.update_of_ne hx, Function.update_of_ne hp]
  · intro x hx
    by_cases hp : x = p
    · subst hp
      constructor <;> simp [setNext, deepAttach, Function.update_of_ne hx]
    · simpa [setNext, deepAttach, Function.update_of_ne hx, Function.update_of_ne hp] using hself x
  · simp [setNext]

/-- **A round adds one segment to the clone.** -/
theorem ClonedSo.round {mi : ℕ} (h : ClonedSo alloc room heap ms st cs) (hcalls : st.calls = cs.length)
    (hfresh : FreshMbufs alloc ms) (hlt : cs.length < ms.length)
    (halloc : allocMbuf alloc st = (st', some mi)) :
    ClonedSo alloc room heap ms
      (setNext (deepAttach room st' mi ms[cs.length]) (prevOf cs mi) (some mi)) (cs ++ [mi]) := by
  obtain ⟨hanswer, hst'⟩ := allocMbuf_some halloc
  rw [hcalls] at hanswer
  have hmi := h.fresh hfresh hanswer
  have hnodup := h.nodup hfresh
  have hapart : mi ∉ ms := hfresh.apart _ _ hanswer
  have hmd : ms[cs.length] ∉ cs ++ [mi] := by
    rw [List.mem_append, List.mem_singleton]
    rintro (hmem | heq)
    · obtain ⟨i, hi, heq⟩ := List.getElem_of_mem hmem
      exact hfresh.apart i cs[i] (h.answers i hi) (heq ▸ List.getElem_mem hlt)
    · exact hapart (heq ▸ List.getElem_mem hlt)
  have hbefore : ∀ x, x ≠ mi → st'.heap x = st.heap x := by
    intro x hx
    rw [hst']
    exact Function.update_of_ne hx _ _
  obtain ⟨hnew, hsame, hold, hnext⟩ := round_heap room st' mi ms[cs.length] (prevOf cs mi)
  have hneq : ms[cs.length] ≠ mi := by
    intro heq
    exact hmd (List.mem_append_right _ (List.mem_singleton.mpr heq))
  have hsrc : st'.heap ms[cs.length] = heap ms[cs.length] := by
    rw [hbefore _ hneq]
    exact h.frame _ fun hmem => hmd (List.mem_append_left _ hmem)
  have htake : ms.take (cs.length + 1) = ms.take cs.length ++ [ms[cs.length]] :=
    List.take_succ_eq_append_getElem hlt
  refine ⟨?_, ?_, ?_, ?_, ?_, ?_⟩
  · show st'.allocated = _
    rw [hst', ← h.allocated]
  · intro i hi
    by_cases hin : i < cs.length
    · rw [List.getElem_append_left hin]
      exact h.answers i hin
    · have hlast : i = cs.length := by
        rw [List.length_append, List.length_singleton] at hi
        omega
      subst hlast
      rw [List.getElem_append_right (Nat.le_refl _)]
      simpa using hanswer
  · intro i c m hc hm
    by_cases hin : i < cs.length
    · rw [List.getElem?_append_left hin] at hc
      have hci : c ≠ mi := fun heq => hmi (heq ▸ List.mem_of_getElem? hc)
      have hkept := hold c hci
      rw [hbefore c hci] at hkept
      exact hkept.trans (h.copies i c m hc hm)
    · have hlast : i = cs.length := by
        have hi := (List.getElem?_eq_some_iff.mp hc).1
        rw [List.length_append, List.length_singleton] at hi
        omega
      subst hlast
      rw [List.getElem?_append_right (Nat.le_refl _), Nat.sub_self] at hc
      rw [List.getElem?_eq_getElem hlt] at hm
      have hcm : c = mi := (Option.some.inj hc).symm
      have hmm : m = ms[cs.length] := (Option.some.inj hm).symm
      rw [hcm, hmm, ← hsrc]
      exact hnew
  · intro i c c' hc hc'
    have hi' := (List.getElem?_eq_some_iff.mp hc').1
    rw [List.length_append, List.length_singleton] at hi'
    have hin : i < cs.length := by omega
    rw [List.getElem?_append_left hin] at hc
    by_cases hlast : i + 1 = cs.length
    · -- the segment before the new one
      have hprev : prevOf cs mi = c := by
        rw [prevOf, List.getLast?_eq_getElem?, ← hlast, Nat.add_sub_cancel, hc, Option.getD_some]
      rw [hlast, List.getElem?_append_right (Nat.le_refl _), Nat.sub_self] at hc'
      rw [← hprev, hnext]
      exact hc'
    · rw [List.getElem?_append_left (by omega)] at hc'
      have hci : c ≠ mi := fun heq => hmi (heq ▸ List.mem_of_getElem? hc)
      have hcp : c ≠ prevOf cs mi := by
        intro heq
        have hget : cs[cs.length - 1]? = some c := by
          rw [heq, prevOf, List.getLast?_eq_getElem?,
            List.getElem?_eq_getElem (show cs.length - 1 < cs.length by omega), Option.getD_some]
        exact List.nodup_iff_getElem?_ne_getElem?.mp hnodup i (cs.length - 1) (by omega) (by omega)
          (hc.trans hget.symm)
      rw [hsame c hci hcp, hbefore c hci]
      exact h.links i c c' hc hc'
  · intro x hx
    rw [List.mem_append, List.mem_singleton, not_or] at hx
    have hxp : x ≠ prevOf cs mi := by
      rintro rfl
      exact (List.mem_append.mp (prevOf_mem cs mi)).elim hx.1 fun heq =>
        hx.2 (List.mem_singleton.mp heq)
    rw [hsame x hx.2 hxp, hbefore x hx.2]
    exact h.frame x hx.1
  · show (st'.overrun || decide (room < (st'.heap ms[cs.length]).data_len)) = _
    rw [hsrc, List.length_append, List.length_singleton, htake, List.any_append, ← h.overrun, hst']
    simp

/-! ## The loop -/

/-- How many of the first `n` allocations are granted before one fails. -/
def granted (alloc : ℕ → Option ℕ) (n : ℕ) : ℕ :=
  ((List.range n).takeWhile fun k => (alloc k).isSome).length

/-- The allocations before the first that fails are those that are granted. -/
theorem granted_eq {n k : ℕ} (hk : k ≤ n) (hsome : ∀ i < k, (alloc i).isSome)
    (hnone : k < n → alloc k = none) : granted alloc n = k := by
  obtain ⟨d, rfl⟩ := Nat.exists_eq_add_of_le hk
  have hsplit : List.range (k + d) = List.range k ++ List.range' k d := by
    have happend := @List.range'_append_1 0 k d
    rw [Nat.zero_add] at happend
    rw [List.range_eq_range', List.range_eq_range', happend]
  have hall : ∀ i ∈ List.range k, (alloc i).isSome = true := by
    intro i hi
    exact hsome i (List.mem_range.mp hi)
  rw [granted, hsplit, List.takeWhile_append_of_pos hall]
  cases d with
  | zero => simp
  | succ d =>
    rw [List.range'_succ, List.takeWhile_cons_of_neg (by simp [hnone (by omega)])]
    simp

/-- **The loop fills one segment for each allocation that is granted**, and says whether that
is all of them. -/
theorem cloneLoop_spec (hfresh : FreshMbufs alloc ms) (hchain : IsMbufChain heap ms) :
    ∀ (fuel : ℕ) (cs : List ℕ) (st st' : CloneState) (mi : ℕ), ClonedSo alloc room heap ms st cs →
      st.calls = cs.length → (hlt : cs.length < ms.length) → allocMbuf alloc st = (st', some mi) →
      ms.length ≤ cs.length + fuel →
      ∃ st₂ last cs₂,
        cloneLoop alloc room fuel st' mi ms[cs.length] (prevOf cs mi) (cs.length % 256) =
            some ⟨st₂, last, cs₂.length % 256, decide (cs₂.length = ms.length)⟩ ∧
          ClonedSo alloc room heap ms st₂ cs₂ ∧ cs₂.getLast? = some last ∧
          cs₂.head? = (cs ++ [mi]).head? ∧ cs₂.length = granted alloc ms.length ∧
          cs₂.length ≤ ms.length := by
  intro fuel
  induction fuel with
  | zero =>
    intro cs st st' mi h hcalls hlt halloc hfuel
    omega
  | succ fuel ih =>
    intro cs st st' mi h hcalls hlt halloc hfuel
    have hround := h.round hcalls hfresh hlt halloc
    obtain ⟨hanswer, hst'⟩ := allocMbuf_some halloc
    have hlen : (cs ++ [mi]).length = cs.length + 1 := by simp
    have hsome : ∀ i < cs.length + 1, (alloc i).isSome := by
      intro i hi
      have hi' : i < (cs ++ [mi]).length := by omega
      rw [hround.answers i hi']
      rfl
    have hcalls' : (setNext (deepAttach room st' mi ms[cs.length]) (prevOf cs mi) (some mi)).calls =
        (cs ++ [mi]).length := by
      show st'.calls = _
      rw [hst', hlen, ← hcalls]
    have hnseg : (cs.length % 256 + 1) % 256 = (cs ++ [mi]).length % 256 := by
      rw [hlen]
      omega
    have hlast : (cs ++ [mi]).getLast? = some mi := by simp
    have hmd : (setNext (deepAttach room st' mi ms[cs.length]) (prevOf cs mi) (some mi)).heap
        ms[cs.length] = heap ms[cs.length] := by
      refine hround.frame _ fun hmem => ?_
      obtain ⟨i, hi, heq⟩ := List.getElem_of_mem hmem
      exact hfresh.apart i _ (hround.answers i hi) (heq ▸ List.getElem_mem hlt)
    rw [cloneLoop]
    simp only [hnseg]
    generalize setNext (deepAttach room st' mi ms[cs.length]) (prevOf cs mi) (some mi) = st₁ at *
    rw [hmd]
    by_cases hmore : cs.length + 1 < ms.length
    · have hnext : (heap ms[cs.length]).next = some ms[cs.length + 1] :=
        hchain.links cs.length _ _ (List.getElem?_eq_getElem hlt) (List.getElem?_eq_getElem hmore)
      rw [hnext]
      cases ha : alloc (cs.length + 1) with
      | none =>
        have hfail : allocMbuf alloc st₁ = ({ st₁ with calls := cs.length + 1 + 1 }, none) := by
          rw [allocMbuf, hcalls', hlen, ha]
        simp only [hfail]
        refine ⟨{ st₁ with calls := cs.length + 1 + 1 }, mi, cs ++ [mi], ?_, ?_, hlast, rfl, ?_,
          by omega⟩
        · have hshort : ¬(cs ++ [mi]).length = ms.length := by omega
          rw [decide_eq_false hshort]
        · exact ⟨hround.allocated, hround.answers, hround.copies, hround.links, hround.frame,
            hround.overrun⟩
        · rw [hlen, granted_eq (by omega) hsome fun _ => ha]
      | some mi' =>
        obtain ⟨st₁', hnew⟩ : ∃ st₁', allocMbuf alloc st₁ = (st₁', some mi') := by
          rw [allocMbuf, hcalls', hlen, ha]
          exact ⟨_, rfl⟩
        simp only [hnew]
        obtain ⟨st₂, last, cs₂, hrun, hcloned, hlast₂, hhead, hgranted, hle⟩ :=
          ih (cs ++ [mi]) st₁ st₁' mi' hround hcalls' (by omega) hnew (by omega)
        have hprev : prevOf (cs ++ [mi]) mi' = mi := by
          rw [prevOf, hlast, Option.getD_some]
        simp only [hprev, hlen] at hrun
        rw [hlen]
        refine ⟨st₂, last, cs₂, hrun, hcloned, hlast₂, ?_, hgranted, hle⟩
        rw [hhead]
        cases cs with
        | nil => rfl
        | cons c cs => rfl
    · have hnext : (heap ms[cs.length]).next = none := by
        apply hchain.last
        rw [List.getLast?_eq_getElem?, Option.mem_def, List.getElem?_eq_getElem (by omega)]
        congr 2
        omega
      rw [hnext]
      refine ⟨st₁, mi, cs ++ [mi], ?_, hround, hlast, rfl, ?_, by omega⟩
      · have hfull : (cs ++ [mi]).length = ms.length := by omega
        rw [decide_eq_true hfull]
      · rw [hlen, granted_eq (by omega) hsome fun hlt' => absurd hlt' hmore]

/-! ## The end of the function -/

theorem setNext_of_ne (st : CloneState) {prev : ℕ} (m : Option ℕ) (h : x ≠ prev) :
    (setNext st prev m).heap x = st.heap x :=
  Function.update_of_ne h _ _

/-- The heap, when `prev` has been cleared and the head has its counts. -/
def closedHeap (st : CloneState) (last mc nseg pktlen : ℕ) : ℕ → ChainMbuf :=
  Function.update (setNext st last none).heap mc
    { (setNext st last none).heap mc with nb_segs := nseg, pkt_len := pktlen }

theorem closedHeap_copy (st : CloneState) (last mc nseg pktlen x : ℕ) :
    SegCopy (closedHeap st last mc nseg pktlen x) (st.heap x) := by
  have hset : SegCopy ((setNext st last none).heap x) (st.heap x) := by
    by_cases hlast : x = last
    · subst hlast
      constructor <;> simp [setNext]
    · simpa [setNext, Function.update_of_ne hlast] using SegCopy.refl (st.heap x)
  refine SegCopy.trans ?_ hset
  by_cases hmc : x = mc
  · subst hmc
    constructor <;> simp [closedHeap]
  · simpa [closedHeap, Function.update_of_ne hmc] using SegCopy.refl _

theorem closedHeap_next (st : CloneState) (last mc nseg pktlen x : ℕ) :
    (closedHeap st last mc nseg pktlen x).next = if x = last then none else (st.heap x).next := by
  have hset : (closedHeap st last mc nseg pktlen x).next = ((setNext st last none).heap x).next := by
    by_cases hmc : x = mc
    · subst hmc
      simp [closedHeap]
    · rw [closedHeap, Function.update_of_ne hmc]
  rw [hset]
  by_cases hlast : x = last
  · subst hlast
    simp [setNext]
  · rw [if_neg hlast, setNext_of_ne st none hlast]

theorem closedHeap_frame (st : CloneState) (last mc nseg pktlen : ℕ) (hlast : x ≠ last) (hmc : x ≠ mc) :
    closedHeap st last mc nseg pktlen x = st.heap x := by
  rw [closedHeap, Function.update_of_ne hmc, setNext_of_ne st none hlast]

/-- The mbufs `cs`, in the heap that the function leaves, are a chain that equals `ms`. -/
structure IsClone (heap heap' : ℕ → ChainMbuf) (ms cs : List ℕ) : Prop where
  length : cs.length = ms.length
  links : LinkedInOrder heap' cs
  last : ∀ c ∈ cs.getLast?, (heap' c).next = none
  copies : ∀ i c m : ℕ, cs[i]? = some c → ms[i]? = some m → SegCopy (heap' c) (heap m)
  nb_segs : ∀ c ∈ cs.head?, ∀ m ∈ ms.head?, (heap' c).nb_segs = (heap m).nb_segs
  pkt_len : ∀ c ∈ cs.head?, ∀ m ∈ ms.head?, (heap' c).pkt_len = (heap m).pkt_len

/-- The links of the clone, when its last segment has been closed. -/
theorem ClonedSo.closed_links (h : ClonedSo alloc room heap ms st cs) (hfresh : FreshMbufs alloc ms)
    (hlast : cs.getLast? = some last) (mc nseg pktlen : ℕ) :
    LinkedInOrder (closedHeap st last mc nseg pktlen) cs := by
  intro i c c' hc hc'
  have hi := (List.getElem?_eq_some_iff.mp hc').1
  have hne : c ≠ last := by
    rintro rfl
    rw [List.getLast?_eq_getElem?] at hlast
    exact List.nodup_iff_getElem?_ne_getElem?.mp (h.nodup hfresh) i (cs.length - 1) (by omega)
      (by omega) (hc.trans hlast.symm)
  rw [closedHeap_next, if_neg hne]
  exact h.links i c c' hc hc'

/-- Along the links of a chain lie its mbufs. -/
theorem mbufsFrom_eq (cs : List ℕ) (hlinks : LinkedInOrder heap cs) :
    mbufsFrom heap cs.length cs.head? = cs := by
  induction cs with
  | nil => rfl
  | cons c cs ih =>
    have htail : LinkedInOrder heap cs := by
      intro i m m' hm hm'
      exact hlinks (i + 1) m m' hm hm'
    rw [List.length_cons, List.head?_cons, mbufsFrom]
    congr 1
    cases cs with
    | nil => rfl
    | cons c' cs =>
      rw [hlinks 0 c c' rfl rfl]
      exact ih htail

/-! ## Freeing a clone -/

/-- A segment that `rte_pktmbuf_free` takes for what it is: one that is attached to nothing. -/
def NotAttached (flags : BitVec 64) : Prop :=
  flags &&& RTE_MBUF_F_EXTERNAL = 0 ∧ flags &&& RTE_MBUF_F_INDIRECT = 0

instance (flags : BitVec 64) : Decidable (NotAttached flags) :=
  inferInstanceAs (Decidable (_ ∧ _))

theorem freeSegs_of_notAttached (cs : List ℕ) (h : ∀ c ∈ cs, NotAttached (heap c).ol_flags) :
    freeSegs heap cs = some cs := by
  induction cs with
  | nil => rfl
  | cons c cs ih =>
    obtain ⟨hext, hind⟩ := h c List.mem_cons_self
    have hseg : freeSeg heap c = some [c] := by
      rw [freeSeg, if_neg (not_not.mpr hext), if_neg (not_not.mpr hind)]
    rw [freeSegs, hseg, ih fun c' hc' => h c' (List.mem_cons_of_mem _ hc')]
    rfl

/-- Each segment is freed at least once, and exactly once only if it counts as attached to
nothing. -/
theorem freeSeg_length (h : freeSeg heap c = some xs) :
    1 ≤ xs.length ∧ (xs.length = 1 → NotAttached (heap c).ol_flags) := by
  rw [freeSeg] at h
  split at h
  · cases h
  · rename_i hext
    split at h
    · obtain rfl := Option.some.inj h
      simp
    · rename_i hind
      obtain rfl := Option.some.inj h
      exact ⟨Nat.le_refl 1, fun _ => ⟨not_not.mp hext, not_not.mp hind⟩⟩

theorem freeSegs_length (h : freeSegs heap cs = some xs) :
    cs.length ≤ xs.length ∧
      (xs.length = cs.length → ∀ c ∈ cs, NotAttached (heap c).ol_flags) := by
  induction cs generalizing xs with
  | nil => simp
  | cons c cs ih =>
    rw [freeSegs] at h
    cases hseg : freeSeg heap c with
    | none =>
      rw [hseg] at h
      cases h
    | some ys =>
      cases hsegs : freeSegs heap cs with
      | none =>
        rw [hseg, hsegs] at h
        cases h
      | some zs =>
        rw [hseg, hsegs] at h
        obtain rfl := Option.some.inj h
        obtain ⟨hone, hflags⟩ := freeSeg_length hseg
        obtain ⟨hle, hrest⟩ := ih hsegs
        rw [List.length_append, List.length_cons]
        refine ⟨by omega, fun hlen c' hc' => ?_⟩
        rcases List.mem_cons.mp hc' with rfl | hmem
        · exact hflags (by omega)
        · exact hrest (by omega) c' hmem

/-- **Freeing gives each segment back once exactly when none counts as attached.** -/
theorem freeSegs_perm_iff (cs : List ℕ) :
    (∃ xs, freeSegs heap cs = some xs ∧ xs.Perm cs) ↔ ∀ c ∈ cs, NotAttached (heap c).ol_flags := by
  constructor
  · rintro ⟨xs, hfreed, hperm⟩
    exact (freeSegs_length hfreed).2 hperm.length_eq
  · intro h
    exact ⟨cs, freeSegs_of_notAttached cs h, List.Perm.refl cs⟩

/-! ## The function -/

/-- **What the function returns**, when its first allocation is granted: the segments that have
been filled, linked and closed, and freed unless they are all. -/
theorem deepClone_spec {alloc : ℕ → Option ℕ} {room : ℕ} {heap : ℕ → ChainMbuf} {md mc : ℕ}
    {rest : List ℕ} (hfresh : FreshMbufs alloc (md :: rest)) (hchain : IsMbufChain heap (md :: rest))
    (hmc : alloc 0 = some mc) :
    ∃ st last cs, ClonedSo alloc room heap (md :: rest) st cs ∧ cs.getLast? = some last ∧
      cs.head? = some mc ∧ cs.length = granted alloc (md :: rest).length ∧
      cs.length ≤ (md :: rest).length ∧
      pktmbufDeepCloneChain alloc room (rest.length + 1) heap md =
        some ⟨{ st with heap := closedHeap st last mc (cs.length % 256) (heap md).pkt_len },
          if cs.length = (md :: rest).length then some mc else none,
          if cs.length = (md :: rest).length then some []
          else freeSegs (closedHeap st last mc (cs.length % 256) (heap md).pkt_len) cs⟩ := by
  have hstart : ClonedSo alloc room heap (md :: rest) ⟨heap, 0, [], false⟩ [] := by
    refine ⟨rfl, ?_, ?_, ?_, fun _ _ => rfl, rfl⟩
    · intro i hi
      cases hi
    · intro i c m hc
      cases hc
    · intro i c c' hc
      cases hc
  obtain ⟨st₁, halloc⟩ : ∃ st₁, allocMbuf alloc ⟨heap, 0, [], false⟩ = (st₁, some mc) := by
    rw [allocMbuf, hmc]
    exact ⟨_, rfl⟩
  obtain ⟨st, last, cs, hrun, hcloned, hlast, hhead, hgranted, hle⟩ :=
    cloneLoop_spec hfresh hchain (rest.length + 1) [] _ st₁ mc hstart rfl (by simp) halloc (by simp)
  have hloop : cloneLoop alloc room (rest.length + 1) st₁ mc md mc 0 =
      some ⟨st, last, cs.length % 256, decide (cs.length = (md :: rest).length)⟩ := hrun
  rw [List.nil_append, List.head?_singleton] at hhead
  refine ⟨st, last, cs, hcloned, hlast, hhead, hgranted, hle, ?_⟩
  have hwalk : freeSegs (closedHeap st last mc (cs.length % 256) (heap md).pkt_len)
        (mbufsFrom (closedHeap st last mc (cs.length % 256) (heap md).pkt_len) st.allocated.length
          (some mc)) =
      freeSegs (closedHeap st last mc (cs.length % 256) (heap md).pkt_len) cs := by
    rw [hcloned.allocated, ← hhead, mbufsFrom_eq cs (hcloned.closed_links hfresh hlast mc _ _)]
  rw [pktmbufDeepCloneChain, halloc]
  simp only [hloop]
  by_cases hall : cs.length = (md :: rest).length
  · rw [decide_eq_true hall, if_pos hall, if_pos hall]
    rfl
  · rw [decide_eq_false hall, if_neg hall, if_neg hall, ← hwalk]
    rfl

/-- What is asked of the function. -/
def DeepCloneRight (alloc : ℕ → Option ℕ) (heap : ℕ → ChainMbuf) (ms : List ℕ) (r : CloneResult) :
    Prop :=
  (∀ m ∈ ms, r.st.heap m = heap m) ∧ r.st.overrun = false ∧
    (r.clone.isSome ↔ ∀ k < ms.length, (alloc k).isSome) ∧
    match r.clone with
    | none => ∃ xs, r.freed = some xs ∧ xs.Perm r.st.allocated
    | some c =>
      r.freed = some [] ∧ r.st.allocated.head? = some c ∧ r.st.allocated.Nodup ∧
        (∀ x ∈ r.st.allocated, x ∉ ms) ∧ IsClone heap r.st.heap ms r.st.allocated

/-- When the function does it. -/
def DeepCloneSafe (alloc : ℕ → Option ℕ) (room : ℕ) (heap : ℕ → ChainMbuf) (ms : List ℕ) : Prop :=
  (∀ m ∈ ms.take (granted alloc ms.length), (heap m).data_len ≤ room) ∧
    if granted alloc ms.length = ms.length then ms.length < 256
    else ∀ m ∈ ms.take (granted alloc ms.length), NotAttached (heap m).ol_flags

/-- The flags of the clone are those of the segments that have been copied. -/
theorem ClonedSo.notAttached_iff {heap' : ℕ → ChainMbuf} (h : ClonedSo alloc room heap ms st cs)
    (hle : cs.length ≤ ms.length) (hcopy : ∀ x, SegCopy (heap' x) (st.heap x)) :
    (∀ c ∈ cs, NotAttached (heap' c).ol_flags) ↔
      ∀ m ∈ ms.take cs.length, NotAttached (heap m).ol_flags := by
  have hflags : ∀ i (hi : i < cs.length), (heap' cs[i]).ol_flags = (heap ms[i]).ol_flags := by
    intro i hi
    have hget := List.getElem?_eq_getElem (show i < ms.length by omega)
    exact (hcopy _).ol_flags.trans (h.copies i _ _ (List.getElem?_eq_getElem hi) hget).ol_flags
  constructor
  · intro hall m hm
    obtain ⟨i, hi, rfl⟩ := List.mem_take_iff_getElem.mp hm
    rw [← hflags i (by omega)]
    exact hall _ (List.getElem_mem (by omega))
  · intro hall c hc
    obtain ⟨i, hi, rfl⟩ := List.getElem_of_mem hc
    rw [hflags i hi]
    exact hall _ (List.mem_take_iff_getElem.mpr ⟨i, by omega, rfl⟩)

/-- No copy was too long exactly when no segment that has been copied is. -/
theorem ClonedSo.overrun_iff (h : ClonedSo alloc room heap ms st cs) :
    st.overrun = false ↔ ∀ m ∈ ms.take cs.length, (heap m).data_len ≤ room := by
  rw [h.overrun, List.any_eq_false]
  simp

/-- A chain that has been cloned to its end is a clone, if its segments can be counted. -/
theorem ClonedSo.isClone_iff {mc : ℕ} (h : ClonedSo alloc room heap (md :: rest) st cs)
    (hfresh : FreshMbufs alloc (md :: rest)) (hchain : IsMbufChain heap (md :: rest))
    (hlast : cs.getLast? = some last) (hhead : cs.head? = some mc)
    (hlen : cs.length = (md :: rest).length) :
    IsClone heap (closedHeap st last mc (cs.length % 256) (heap md).pkt_len) (md :: rest) cs ↔
      (md :: rest).length < 256 := by
  have hmc : closedHeap st last mc (cs.length % 256) (heap md).pkt_len mc =
      { (setNext st last none).heap mc with
        nb_segs := cs.length % 256, pkt_len := (heap md).pkt_len } :=
    Function.update_self _ _ _
  have hcount := hchain.nb_segs md rfl
  constructor
  · intro hclone
    have hsame := hclone.nb_segs mc hhead md rfl
    rw [hmc, hcount] at hsame
    have hmod : cs.length % 256 = (md :: rest).length := hsame
    omega
  · intro hlt
    refine ⟨hlen, h.closed_links hfresh hlast mc _ _, ?_, ?_, ?_, ?_⟩
    · intro c hc
      rw [hlast] at hc
      obtain rfl := Option.some.inj hc
      rw [closedHeap_next, if_pos rfl]
    · intro i c m hc hm
      exact (closedHeap_copy st last mc _ _ c).trans (h.copies i c m hc hm)
    · intro c hc m hm
      rw [hhead] at hc
      obtain rfl := Option.some.inj hc
      obtain rfl := Option.some.inj hm
      rw [hmc, hcount]
      show cs.length % 256 = (md :: rest).length
      rw [hlen, Nat.mod_eq_of_lt hlt]
    · intro c hc m hm
      rw [hhead] at hc
      obtain rfl := Option.some.inj hc
      obtain rfl := Option.some.inj hm
      rw [hmc]

/-- **A clone is faithful exactly when** each segment that is copied fits into a data room, and either all
allocations are granted and there are fewer than 256 segments, or none of the segments that have been
copied is marked as attached. -/
theorem deep_clone_right_iff (alloc : ℕ → Option ℕ) (room : ℕ) (heap : ℕ → ChainMbuf) (md : ℕ)
    (rest : List ℕ) (hchain : IsMbufChain heap (md :: rest))
    (hfresh : FreshMbufs alloc (md :: rest)) :
    ∃ r, pktmbufDeepCloneChain alloc room (rest.length + 1) heap md = some r ∧
      (DeepCloneRight alloc heap (md :: rest) r ↔ DeepCloneSafe alloc room heap (md :: rest)) := by
  cases hfirst : alloc 0 with
  | none =>
    have hgranted : granted alloc (md :: rest).length = 0 :=
      granted_eq (Nat.zero_le _) (fun i hi => absurd hi (Nat.not_lt_zero i)) fun _ => hfirst
    refine ⟨⟨⟨heap, 1, [], false⟩, none, some []⟩, ?_, ?_⟩
    · rw [pktmbufDeepCloneChain, allocMbuf, hfirst]
    · refine iff_of_true ⟨fun _ _ => rfl, rfl, ?_, [], rfl, List.Perm.refl _⟩ ?_
      · refine iff_of_false (by simp) fun hall => ?_
        have hzero := hall 0 (by simp)
        rw [hfirst] at hzero
        cases hzero
      · rw [DeepCloneSafe, hgranted]
        simp
  | some mc =>
    obtain ⟨st, last, cs, hcloned, hlast, hhead, hgranted, hle, hrun⟩ :=
      @deepClone_spec alloc room heap md mc rest hfresh hchain hfirst
    refine ⟨_, hrun, ?_⟩
    have hapart : ∀ c ∈ cs, c ∉ md :: rest := by
      intro c hc
      obtain ⟨i, hi, rfl⟩ := List.getElem_of_mem hc
      exact hfresh.apart i _ (hcloned.answers i hi)
    have hkept : ∀ m ∈ md :: rest,
        closedHeap st last mc (cs.length % 256) (heap md).pkt_len m = heap m := by
      intro m hm
      have hm' : m ∉ cs := fun hmem => hapart m hmem hm
      have hnotlast : m ≠ last := by
        rintro rfl
        exact hm' (List.mem_of_getLast? hlast)
      have hnotfirst : m ≠ mc := by
        rintro rfl
        exact hm' (List.mem_of_head? hhead)
      rw [closedHeap_frame st last mc _ _ hnotlast hnotfirst, hcloned.frame m hm']
    have hgrants : cs.length = (md :: rest).length ↔ ∀ k < (md :: rest).length, (alloc k).isSome := by
      constructor
      · intro hall k hk
        rw [hcloned.answers k (by omega)]
        rfl
      · intro hall
        rw [hgranted]
        exact granted_eq (Nat.le_refl _) hall fun hlt => absurd hlt (Nat.lt_irrefl _)
    rw [DeepCloneRight, DeepCloneSafe, ← hgranted, ← hcloned.overrun_iff, ← hgrants]
    by_cases hall : cs.length = (md :: rest).length
    · simp only [if_pos hall, hcloned.allocated]
      rw [← hcloned.isClone_iff hfresh hchain hlast hhead hall]
      constructor
      · rintro ⟨-, hover, -, -, -, -, -, hclone⟩
        exact ⟨hover, hclone⟩
      · rintro ⟨hover, hclone⟩
        exact ⟨hkept, hover, iff_of_true rfl hall, trivial, hhead, hcloned.nodup hfresh, hapart, hclone⟩
    · simp only [if_neg hall, hcloned.allocated]
      rw [freeSegs_perm_iff, hcloned.notAttached_iff hle (closedHeap_copy st last mc _ _)]
      constructor
      · rintro ⟨-, hover, -, hfree⟩
        exact ⟨hover, hfree⟩
      · rintro ⟨hover, hfree⟩
        exact ⟨hkept, hover, iff_of_false (by simp) hall, hfree⟩

/-! ## The clone in the receiving code

`process_packets` is modelled on whole packets, without the heap, and has its own
`pktmbufDeepClone`.  What it makes of a packet is the chain that is made here.
-/

/-- A segment as the receiving code sees it, with its length as the `uint16_t` of the source. -/
def rxSegOf (m : ChainMbuf) : RxSeg := ⟨m.data, UInt16.ofNat m.data_len⟩

/-- The chain `ms` is the packet `f`. -/
structure IsFrameOf (heap : ℕ → ChainMbuf) (ms : List ℕ) (f : Frame) : Prop where
  segs : f.head :: f.rest = ms.map fun m => rxSegOf (heap m)
  pkt_len : ∀ m ∈ ms.head?, (heap m).pkt_len = f.pkt_len

/-- A copy is what attaching makes of a data room that holds the same behind the data. -/
theorem SegCopy.pktmbufDeepAttach {c m : ChainMbuf} (h : SegCopy c m) (hlen : m.data_len < 65536) :
    pktmbufDeepAttach c.data (rxSegOf m) = rxSegOf c := by
  have htoNat : (UInt16.ofNat m.data_len).toNat = m.data_len := by
    rw [UInt16.toNat_ofNat']
    exact Nat.mod_eq_of_lt hlen
  have hbytes : ∀ i < m.data_len, c.data i = m.data i := by
    intro i hi
    have hget := congrArg (fun bytes => bytes[i]?) h.data
    rw [h.data_len] at hget
    simpa [readAt, hi] using hget
  rw [Model.pktmbufDeepAttach, rxSegOf, rxSegOf, h.data_len]
  congr 1
  funext i
  dsimp only
  rw [htoNat]
  split
  · rename_i hi
    exact (hbytes i hi).symm
  · rfl

/-- **Both models of `pktmbuf_deep_clone` agree**: if the copy can be allocated when all segments can, and
its data rooms hold what those of the clone hold, then the receiving code has the clone. -/
theorem deepClone_received (hchain : IsMbufChain heap (md :: rest))
    (hfresh : FreshMbufs alloc (md :: rest)) (hlen : ∀ m ∈ md :: rest, (heap m).data_len < 65536)
    (m : Mbuf) (hm : IsFrameOf heap (md :: rest) m.frame) :
    ∃ r, pktmbufDeepCloneChain alloc room (rest.length + 1) heap md = some r ∧
      ∀ (env : RxEnv) (dest : Option ℕ), env.clone dest = r.clone.isSome →
        (∀ i c : ℕ, r.st.allocated[i]? = some c → env.room dest i = (r.st.heap c).data) →
        match pktmbufDeepClone env dest m with
        | none => r.clone = none
        | some m' => r.clone.isSome ∧ IsFrameOf r.st.heap r.st.allocated m'.frame := by
  cases hfirst : alloc 0 with
  | none =>
    refine ⟨⟨⟨heap, 1, [], false⟩, none, some []⟩, ?_, ?_⟩
    · rw [pktmbufDeepCloneChain, allocMbuf, hfirst]
    · intro env dest hclone _
      rw [pktmbufDeepClone, hclone]
      rfl
  | some mc =>
    obtain ⟨st, last, cs, hcloned, hlast, hhead, -, -, hrun⟩ :=
      @deepClone_spec alloc room heap md mc rest hfresh hchain hfirst
    refine ⟨_, hrun, ?_⟩
    intro env dest hclone hroom
    simp only [hcloned.allocated] at hroom ⊢
    rw [pktmbufDeepClone, hclone]
    by_cases hall : cs.length = (md :: rest).length
    · rw [if_pos hall, Option.isSome_some, if_pos rfl]
      refine ⟨rfl, ?_, ?_⟩
      · have hcons := List.mapIdx_cons (f := fun i s => pktmbufDeepAttach (env.room dest i) s)
          (a := m.frame.head) (l := m.frame.rest)
        refine hcons.symm.trans ?_
        rw [hm.segs]
        apply List.ext_getElem
        · simpa using hall.symm
        · intro i hi hi'
          simp only [List.length_mapIdx, List.length_map] at hi hi'
          simp only [List.getElem_mapIdx, List.getElem_map]
          rw [hroom i _ (List.getElem?_eq_getElem hi')]
          refine SegCopy.pktmbufDeepAttach ?_ (hlen _ (List.getElem_mem hi))
          exact (closedHeap_copy st last mc _ _ _).trans
            (hcloned.copies i _ _ (List.getElem?_eq_getElem hi') (List.getElem?_eq_getElem hi))
      · intro c hc
        rw [hhead] at hc
        obtain rfl := Option.some.inj hc
        rw [closedHeap, Function.update_self]
        exact hm.pkt_len md rfl
    · rw [if_neg hall]
      rfl

/-- A chain of the mbufs `0` to `n - 1`, each with one byte. -/
def rowOfMbufs (n : ℕ) (m : ℕ) : ChainMbuf :=
  { next := if m + 1 < n then some (m + 1) else none
    nb_segs := n
    pkt_len := n
    data := fun _ => 7
    data_len := 1
    port := 0
    vlan_tci := 0
    vlan_tci_outer := 0
    tx_offload := 0
    hash := 0
    ol_flags := 0
    packet_type := 0 }

theorem rowOfMbufs_chain (n : ℕ) : IsMbufChain (rowOfMbufs n) (List.range n) := by
  refine ⟨?_, ?_, ?_⟩
  · intro i m m' hm hm'
    obtain ⟨hi, rfl⟩ := List.getElem?_eq_some_iff.mp hm
    obtain ⟨hi', rfl⟩ := List.getElem?_eq_some_iff.mp hm'
    rw [List.length_range] at hi'
    simp [rowOfMbufs, hi']
  · intro m hm
    rw [List.getLast?_range, Option.mem_def] at hm
    split at hm
    · cases hm
    · obtain rfl := Option.some.inj hm
      have hlast : ¬n - 1 + 1 < n := by omega
      simp [rowOfMbufs, hlast]
  · intro m _
    rw [List.length_range]
    rfl

theorem freshAfter (n : ℕ) : FreshMbufs (fun k => some (n + k)) (List.range n) := by
  refine ⟨?_, ?_⟩
  · intro k c hc
    obtain rfl := Option.some.inj hc
    simp
  · intro j k c hj hk
    have hsame := Option.some.inj (hj.trans hk.symm)
    omega

theorem deep_clone_right_twoSegments :
    ∃ r, pktmbufDeepCloneChain (fun k => some (2 + k)) 1920 2 (rowOfMbufs 2) 0 = some r ∧
      DeepCloneRight (fun k => some (2 + k)) (rowOfMbufs 2) [0, 1] r := by
  obtain ⟨r, hrun, hiff⟩ := deep_clone_right_iff (fun k => some (2 + k)) 1920 (rowOfMbufs 2) 0 [1]
    (rowOfMbufs_chain 2) (freshAfter 2)
  refine ⟨r, hrun, hiff.mpr ⟨?_, ?_⟩⟩
  · intro m _
    exact (by decide : 1 ≤ 1920)
  · decide

/-- The clone of a chain of 256 segments says that it has none. -/
theorem not_deep_clone_right :
    ¬∀ (alloc : ℕ → Option ℕ) (room : ℕ) (heap : ℕ → ChainMbuf) (md : ℕ) (rest : List ℕ),
      IsMbufChain heap (md :: rest) → FreshMbufs alloc (md :: rest) →
        ∃ r, pktmbufDeepCloneChain alloc room (rest.length + 1) heap md = some r ∧
          DeepCloneRight alloc heap (md :: rest) r := by
  intro h
  have hrow : List.range 256 = 0 :: List.range' 1 255 := List.range_eq_range'
  have hchain := rowOfMbufs_chain 256
  have hfresh := freshAfter 256
  rw [hrow] at hchain hfresh
  obtain ⟨r, hr, hright⟩ := h (fun k => some (256 + k)) 1920 (rowOfMbufs 256) 0 (List.range' 1 255)
    hchain hfresh
  obtain ⟨st, last, cs, hcloned, hlast, hhead, hgranted, hle, hrun⟩ :=
    @deepClone_spec _ 1920 (rowOfMbufs 256) 0 256 (List.range' 1 255) hfresh hchain rfl
  have hlen : cs.length = (0 :: List.range' 1 255).length := by
    rw [hgranted]
    exact granted_eq (Nat.le_refl _) (fun _ _ => rfl) fun hlt => absurd hlt (Nat.lt_irrefl _)
  rw [hrun] at hr
  obtain rfl := Option.some.inj hr
  rw [DeepCloneRight] at hright
  simp only [if_pos hlen, hcloned.allocated] at hright
  obtain ⟨-, -, -, -, -, -, -, hclone⟩ := hright
  rw [hcloned.isClone_iff hfresh hchain hlast hhead hlen] at hclone
  simp at hclone

end FStack.Analysis
